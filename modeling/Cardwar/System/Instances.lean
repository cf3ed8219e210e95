import Cardwar.System.Matchmaking

/-!
# Several MatchSvr instances

Gateways and RoomSvrs pick a MatchSvr instance by a hash over the same list, the
gateways of the client's connection id, the RoomSvrs of the match id. Each
instance has its own directory of matches, so what is said about one match meets
in one directory exactly if the hashes of the two connection ids and of the match
id fall on the same instance (`meets_iff`); with one instance they do.
-/

namespace Cardwar.System.Instances

open Conf Protocol Codec Pkg Gateway
open Gateway.Client (Message forward wrap)
open MatchSvr (Matches)
open Matchmaking (announced dispatch_routed matchSvr1)
open Strconv (formatUint)
open Wire (Bytes)

/-- The healthy MatchSvr connections of the registry lead to these instances, in
this order. -/
def Knows (reg : Registry) (servers : List ServerNode) : Prop :=
  ∃ pool, reg.backends.load svcMatchSvr = some pool ∧ pool.routeFn = .hash ∧
    (healthyConns pool).map (·.server) = servers

/-- The place in the list that the key hashes to. -/
def slot (servers : List ServerNode) (key : String) : Nat := (fnv32a key).toNat % servers.length

/-- A gateway that knows these instances sends a client's message about the match
to `srv`. -/
inductive Asks (servers : List ServerNode) (c : UInt64) (msgID : UInt32) (m : String)
    (srv : ServerNode) (data : Bytes) : Prop
  | sent (msg : Message) (hk : Knows reg servers) (hm : decodeMatchId msg.data = .ok m)
      (hf : forward announced reg intn now c conn msgID msg.data = .sent b msgID data)
      (hsrv : b.server = srv)

def destroyedPush (b : Pkg.Conn) (m : String) : Outgoing :=
  ⟨.backend b, msgIdRoomDestroyedPush, .envelope 0 (.roomDestroyedPush m) ∅⟩

/-- A RoomSvr that knows these instances tells `srv` that the room is gone. -/
inductive Notifies (servers : List ServerNode) (m : String) (srv : ServerNode) : Prop
  | sent (env : Env) (hk : Knows env.reg servers)
      (hn : RoomSvr.notifyMatchSvr env m = [destroyedPush b m])
      (hsrv : b.server = srv)

theorem routeTo_slot (hk : Knows reg servers) (hr : reg.routeTo intn svcMatchSvr key = some b) :
    servers[slot servers key]? = some b.server := by
  obtain ⟨pool, hpool, hfn, rfl⟩ := hk
  rw [Registry.routeTo, hpool, Option.bind_some, route, hfn, RouteFunc.apply, hashRoute] at hr
  split at hr
  next => cases hr
  next => rw [slot, List.length_map, List.getElem?_map, hr, Option.map_some]

theorem routeFor_match (h : msgID ∈ MatchSvr.routedMsgIDs) :
    routeFor announced msgID = some ⟨svcMatchSvr, "connId", "hash"⟩ := by
  simp only [MatchSvr.routedMsgIDs, List.mem_cons, List.not_mem_nil, or_false] at h
  rcases h with rfl | rfl | rfl | rfl <;> rfl

theorem forward_match (hid : msgID ∈ MatchSvr.routedMsgIDs)
    (hf : forward announced reg intn now c conn msgID bytes = .sent b msgID data) :
    reg.routeTo intn svcMatchSvr (formatUint c) = some b ∧ wrap c conn bytes = some data := by
  refine ⟨?_, (Client.forward_sent hf).2⟩
  rw [forward, routeFor_match hid] at hf
  dsimp only at hf
  split at hf
  · cases hf
  split at hf
  · cases hf
  split at hf
  · cases hf
  next hr =>
    cases hf
    exact hr

theorem asks_slot (hid : msgID ∈ MatchSvr.routedMsgIDs) (h : Asks servers c msgID m srv data) :
    servers[slot servers (formatUint c)]? = some srv := by
  obtain ⟨msg, hk, hm, hf, rfl⟩ := h
  exact routeTo_slot hk (forward_match hid hf).1

theorem notifies_slot (h : Notifies servers m srv) : servers[slot servers m]? = some srv := by
  obtain ⟨env, hk, hn, rfl⟩ := h
  unfold RoomSvr.notifyMatchSvr at hn
  split at hn
  next => cases hn
  next b' hr =>
    obtain rfl : b' = _ := by simpa [destroyedPush] using hn
    exact routeTo_slot hk hr

abbrev Cluster := ServerNode → Running Matches

def deliver (cluster : Cluster) (srv : ServerNode) (request : Request) : Cluster × List Outgoing :=
  let (st, outs) := MatchSvr.server.dispatch (cluster srv) request
  (Function.update cluster srv st, outs)

def directory (cluster : Cluster) (srv : ServerNode) : SyncMap String MatchSvr.MatchDir :=
  (cluster srv).app.activeMatches

def pushData (m : String) : Bytes := marshalEnvelope 0 (marshalMatchId m) []

/-- An allocation, a query and the notice about one match, sent to these instances. -/
structure Meets (m : String) (c : UInt64) (allocate query notify : ServerNode)
    (allocateData queryData : Bytes) :
    Prop where
  queried : query = allocate
  notified : notify = allocate
  /-- A query after an allocation finds the match. -/
  found : ∀ cluster conn env conn' env',
    let after := (deliver cluster allocate ⟨msgIdMatchAllocateReq, allocateData, conn, env⟩).1
    ∀ dir, (directory after allocate).load m = some dir →
      (deliver after query ⟨msgIdMatchQueryReq, queryData, conn', env'⟩).2 =
        [⟨.conn conn', msgIdMatchQueryResp, .envelope c (.matchQueryResp m dir.serverID true)
          ((tag tagRoomSvrID dir.serverID).store tagMatchID m)⟩]
  /-- The notice takes the match off the directory. -/
  removed : ∀ cluster conn env,
    (directory (deliver cluster notify ⟨msgIdRoomDestroyedPush, pushData m, conn, env⟩).1
      allocate).load m = none

theorem asks_decoded (hid : msgID ∈ MatchSvr.routedMsgIDs) (h : Asks servers c msgID m srv data) :
    ∃ env, decodeEnvelope data = .ok env ∧ env.connId = c ∧ decodeMatchId env.data = .ok m := by
  obtain ⟨msg, hk, hm, hf, rfl⟩ := h
  have hlen : msg.data.length < 2 ^ 64 := Nat.lt_trans msg.isInt (by decide)
  have hwrap := (forward_match hid hf).2
  unfold wrap at hwrap
  split at hwrap <;> cases hwrap
  next =>
    exact ⟨_, decodeEnvelope_marshal hlen (by simp), rfl, hm⟩
  next pid _ =>
    have hkey : (utf8 tagPlayerID).length < 100 := by decide +kernel
    exact ⟨_, decodeEnvelope_tag c hlen hkey pid, rfl, hm⟩

theorem query_found (h : Asks servers c msgIdMatchQueryReq m srv data)
    (hdir : (directory cluster srv).load m = some dir) :
    (deliver cluster srv ⟨msgIdMatchQueryReq, data, conn, env⟩).2 =
      [⟨.conn conn, msgIdMatchQueryResp, .envelope c (.matchQueryResp m dir.serverID true)
        ((tag tagRoomSvrID dir.serverID).store tagMatchID m)⟩] := by
  obtain ⟨e, henv, hc, hm⟩ := asks_decoded (by decide) h
  have hids : msgIdMatchQueryReq ≠ msgIdSessionForceLeaveQueue ∧
      msgIdMatchQueryReq ≠ msgIdMatchEnterReq ∧
      msgIdMatchQueryReq ≠ msgIdMatchAllocateReq := by decide
  have hload : (cluster srv).app.activeMatches.load m = some dir := hdir
  have hdispatch :
      MatchSvr.server.dispatch (cluster srv) ⟨msgIdMatchQueryReq, data, conn, env⟩ = _ :=
    dispatch_routed (show msgIdMatchQueryReq ∈ MatchSvr.routedMsgIDs by decide) _
  simp only [deliver, hdispatch, appRouter, MatchSvr.handle, hids, if_false, henv, if_true,
    MatchSvr.handleQuery, hm, hload, hc]

theorem push_removed (hlen : (utf8 m).length < 2 ^ 63) (cluster : Cluster) (srv : ServerNode)
    (conn : UInt64) (env : Env) :
    (directory (deliver cluster srv ⟨msgIdRoomDestroyedPush, pushData m, conn, env⟩).1 srv).load m =
      none := by
  have hname : namedMatch (pushData m) = some m := by
    have hdata : (marshalMatchId m).length < 2 ^ 64 := by
      have hle := length_marshalMatchId m
      omega
    exact namedMatch_eq (decodeEnvelope_marshal hdata (by simp)) (decodeMatchId_marshal (by omega))
  have hdispatch :
      MatchSvr.server.dispatch (cluster srv) ⟨msgIdRoomDestroyedPush, pushData m, conn, env⟩ = _ :=
    dispatch_routed (show msgIdRoomDestroyedPush ∈ MatchSvr.routedMsgIDs by decide) _
  have hgone : (MatchSvr.handle (cluster srv).app
      ⟨msgIdRoomDestroyedPush, pushData m, conn, env⟩).1.activeMatches.load m = none := by
    refine MatchSvr.handle_destroyed rfl ?_ _
    exact hname
  simp only [deliver, directory, Function.update_self, hdispatch, appRouter, hgone]

/-- The allocation, the query and the notice about a match meet in one directory
exactly if the three keys hash to the same instance. -/
theorem meets_iff (hnd : servers.Nodup)
    (ha : Asks servers c₁ msgIdMatchAllocateReq m allocate allocateData)
    (hq : Asks servers c₂ msgIdMatchQueryReq m query queryData) (hn : Notifies servers m notify) :
    Meets m c₂ allocate query notify allocateData queryData ↔
      slot servers (formatUint c₂) = slot servers (formatUint c₁) ∧
      slot servers m = slot servers (formatUint c₁) := by
  have hslot₁ := asks_slot (by decide) ha
  have hslot₂ := asks_slot (by decide) hq
  have hslot₃ := notifies_slot hn
  have hlt : slot servers (formatUint c₁) < servers.length :=
    (List.getElem?_eq_some_iff.mp hslot₁).1
  constructor
  · intro h
    rw [h.queried] at hslot₂
    rw [h.notified] at hslot₃
    exact ⟨((List.getElem?_inj hlt hnd).mp (hslot₁.trans hslot₂.symm)).symm,
      ((List.getElem?_inj hlt hnd).mp (hslot₁.trans hslot₃.symm)).symm⟩
  · rintro ⟨h₂, h₃⟩
    have hquery : query = allocate := Option.some.inj (hslot₂.symm.trans (h₂ ▸ hslot₁))
    have hnotice : notify = allocate := Option.some.inj (hslot₃.symm.trans (h₃ ▸ hslot₁))
    subst hquery hnotice
    have hlen : (utf8 m).length < 2 ^ 63 := by
      obtain ⟨msg, -, hm, -, -⟩ := ha
      exact Nat.lt_of_le_of_lt (length_decodeMatchId hm) msg.isInt
    refine ⟨rfl, rfl, fun cluster conn env conn' env' dir hdir => ?_, fun cluster conn env => ?_⟩
    · exact query_found hq hdir
    · exact push_removed hlen cluster _ conn env

/-- The keys of all messages meet exactly if there is one instance. -/
theorem slots_agree_iff (servers : List ServerNode) :
    (∀ c₁ c₂ m, slot servers (formatUint c₂) = slot servers (formatUint c₁) ∧
      slot servers m = slot servers (formatUint c₁)) ↔ servers.length = 1 := by
  constructor
  · intro h
    -- The hashes of three connection ids have differences without a common divisor.
    have h2 : (fnv32a "1").toNat ≡ (fnv32a "2").toNat [MOD servers.length] := (h 2 1 "").1
    have h10 : (fnv32a "10").toNat ≡ (fnv32a "1").toNat [MOD servers.length] := (h 1 10 "").1
    have hd2 := (Nat.modEq_iff_dvd' (by decide +kernel)).mp h2
    have hd10 := (Nat.modEq_iff_dvd' (by decide +kernel)).mp h10
    have hgcd : Nat.gcd ((fnv32a "2").toNat - (fnv32a "1").toNat)
        ((fnv32a "1").toNat - (fnv32a "10").toNat) = 1 := by
      decide +kernel
    exact Nat.dvd_one.mp (hgcd ▸ Nat.dvd_gcd hd2 hd10)
  · intro h c₁ c₂ m
    simp [slot, h, Nat.mod_one]

def matchSvr2 : ServerNode := ⟨"matchsvr-2", "0.0.0.0:8014"⟩

def two : List ServerNode := [matchSvr1, matchSvr2]

def pool : Pool := (Run.run poolStep (dialPool two .hash) dialed).getD ⟨[], .hash⟩

def reg : Registry :=
  { identity := svcGateway, backends := (∅ : SyncMap String Pool).store svcMatchSvr pool }

theorem knows_two : Knows reg two := ⟨pool, rfl, rfl, by decide⟩

def requestData (c : UInt64) (m : String) : Bytes := marshalEnvelope c (marshalMatchId m) []

theorem asks_two {msgID : UInt32} (hm : (utf8 m).length < 2 ^ 62)
    (hf : forward announced reg 0 0 c { auth := none } msgID (marshalMatchId m) =
      .sent b msgID (requestData c m))
    (hb : b.server = srv) : Asks two c msgID m srv (requestData c m) := by
  have hint : (marshalMatchId m).length < 2 ^ 63 := by
    have hle := length_marshalMatchId m
    omega
  exact .sent ⟨msgID, marshalMatchId m, hint⟩ knows_two (decodeMatchId_marshal (by omega)) hf hb

theorem notifies_two (hn : RoomSvr.notifyMatchSvr { reg } m = [destroyedPush b m])
    (hb : b.server = srv) :
    Notifies two m srv := .sent { reg } knows_two hn hb

/-- The keys 1, 3 and "match-1" hash to the first instance. -/
theorem lobby_meets :
    Meets "match-1" 3 matchSvr1 matchSvr1 matchSvr1 (requestData 1 "match-1")
    (requestData 3 "match-1") := by
  have hm : (utf8 "match-1").length < 2 ^ 62 := by decide +kernel
  have ha : Asks two 1 msgIdMatchAllocateReq "match-1" matchSvr1 (requestData 1 "match-1") :=
    asks_two hm (b := ⟨matchSvr1, 0, some "matchsvr-1"⟩) (by decide +kernel) rfl
  have hq : Asks two 3 msgIdMatchQueryReq "match-1" matchSvr1 (requestData 3 "match-1") :=
    asks_two hm (b := ⟨matchSvr1, 0, some "matchsvr-1"⟩) (by decide +kernel) rfl
  have hn : Notifies two "match-1" matchSvr1 :=
    notifies_two (b := ⟨matchSvr1, 0, some "matchsvr-1"⟩) (by decide +kernel) rfl
  exact (meets_iff (by decide) ha hq hn).mpr (by decide +kernel)

def idle : Cluster := fun _ => { app := {} }

def allocated : Cluster :=
  (deliver idle matchSvr1 ⟨msgIdMatchAllocateReq, requestData 1 "room-lobby", 1,
    { reg, roomSvrs := shippedRoomSvrs }⟩).1

/-- The second client's query goes to the other instance and finds nothing; so
does the notice, and the match stays in the directory of the first. -/
theorem lobby_split :
    Asks two 1 msgIdMatchAllocateReq "room-lobby" matchSvr1 (requestData 1 "room-lobby") ∧
      Asks two 2 msgIdMatchQueryReq "room-lobby" matchSvr2 (requestData 2 "room-lobby") ∧
      Notifies two "room-lobby" matchSvr2 ∧
      (deliver allocated matchSvr2 ⟨msgIdMatchQueryReq, requestData 2 "room-lobby", 1, { reg }⟩).2 =
        [⟨.conn 1, msgIdMatchQueryResp, .envelope 2 (.matchQueryResp "room-lobby" "" false) ∅⟩] ∧
      (directory (deliver allocated matchSvr2 ⟨msgIdRoomDestroyedPush, pushData "room-lobby",
        1, { reg }⟩).1
        matchSvr1).load "room-lobby" = some ⟨"roomsvr-1", "allocated"⟩ := by
  have hm : (utf8 "room-lobby").length < 2 ^ 62 := by decide +kernel
  refine ⟨?_, ?_, ?_, ?_, ?_⟩
  · exact asks_two hm (b := ⟨matchSvr1, 0, some "matchsvr-1"⟩) (by decide +kernel) rfl
  · exact asks_two hm (b := ⟨matchSvr2, 0, some "matchsvr-2"⟩) (by decide +kernel) rfl
  · exact notifies_two (b := ⟨matchSvr2, 0, some "matchsvr-2"⟩) (by decide +kernel) rfl
  · decide +kernel
  · decide +kernel

end Cardwar.System.Instances
