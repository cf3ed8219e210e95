import Cardwar.Gateway.Conns
import Cardwar.RoomSvr.Members
import Cardwar.System.Matchmaking

/-!
# Room events across gateways

A client's RoomJoinReq goes through its gateway to a RoomSvr, which keeps the
gateway's connection and the client's number there with the member, and sends the
events of the room to that address. Clients come and go, messages are delayed and
overtake each other. As long as a gateway never gives a number twice, an event
reaches only a connection whose own RoomJoinReq for the room was accepted, while the
player it joined for has it (`events_private`).
-/

namespace Cardwar.System.RoomEvents

open Conf Protocol Codec Pkg Gateway
open Gateway.Client (Message ToClient wrap length_wrap responseRouter handleResponse)
open Matchmaking (announced)
open RoomSvr (Rooms RoomPlayer Changed broadcastRoomEvent roomHello)
open RoomSvr.Concurrent (members)
open Run (run Along)
open Strconv (formatInt)
open Wire (Bytes fields)

-- ---------------------------------------------------------------------------
-- The system
-- ---------------------------------------------------------------------------

def textField (num : Nat) (s : String) : List Wire.Field :=
  if s = "" then [] else [(num, .len (utf8 s))]

def countField (num n : Nat) : List Wire.Field := if n = 0 then [] else [(num, .varint n.toUInt64)]

def boolField (num : Nat) (b : Bool) : List Wire.Field := if b then [(num, .varint 1)] else []

def marshalBody : Body → Bytes
  | .roomJoinResp success matchId error =>
    fields (boolField 1 success ++ textField 2 matchId ++ textField 4 error)
  | .roomLeaveResp success => fields (boolField 1 success)
  | .roomEventPush matchId playerId event playerCount =>
    fields (textField 1 matchId ++ textField 2 playerId ++ textField 3 event ++
      countField 4 playerCount)
  | .roomDestroyedPush matchId => fields (textField 1 matchId)
  | .matchEnterResp status queueSize => fields (textField 1 status ++ countField 2 queueSize)
  | .matchResultPush matchId serverId players matchType =>
    let packed := players.flatMap fun p => Wire.varint p.toUInt64.toNat
    fields (textField 1 matchId ++ textField 2 serverId ++
      (if packed = [] then [] else [(3, .len packed)]) ++
      textField 4 matchType)
  | .matchAllocateResp matchId serverId error =>
    fields (textField 1 matchId ++ textField 2 serverId ++ textField 3 error)
  | .matchQueryResp matchId serverId found =>
    fields (textField 1 matchId ++ textField 2 serverId ++ boolField 3 found)

/-- The connections of the RoomSvrs: which gateway is at the other end. -/
abbrev Links := Nat → UInt64 → Option Nat

/-- A message on its way to a RoomSvr. No code reads who sent it, the client's
connection and the player whose token opened that. -/
structure Up where
  server : Nat
  conn : UInt64
  msgID : UInt32
  data : Bytes
  gateway : Nat
  client : UInt64
  player : Option Int64

structure Down where
  gateway : Nat
  msgID : UInt32
  data : Bytes

/-- A RoomJoinReq that a RoomSvr accepted, and who sent it. -/
structure Join where
  server : Nat
  matchID : String
  gateway : Nat
  client : UInt64
  player : Option Int64
  deriving DecidableEq

/-- What a gateway handed to a client, and the player who had the connection then. -/
structure Handed where
  gateway : Nat
  out : ToClient
  player : Option Int64
  deriving DecidableEq

structure State where
  gateways : Nat → Reconnect.State
  roomSvrs : Nat → Running Rooms := fun _ => { app := ∅ }
  up : List Up := []
  down : List Down := []
  -- No code reads the rest.
  opened : SyncMap (Nat × UInt64) (Option Int64) := ∅
  joined : List Join := []
  handed : Multiset Handed := 0

inductive Event
  | gateway (g : Nat) (ev : Reconnect.Event)
  /-- A client sends any message; the gateway routes it to connection `u` of RoomSvr `i`. -/
  | send (g : Nat) (c : UInt64) (msg : Message) (i : Nat) (u : UInt64)
  | handle (k : Nat) (env : Env)
  | respond (k : Nat) (up : List String)

def openedAfter (opened : SyncMap (Nat × UInt64) (Option Int64)) (g : Nat) :
    Reconnect.Event → SyncMap (Nat × UInt64) (Option Int64)
  | .connStart c auth => opened.store (g, c) auth
  | _ => opened

-- A RoomSvr puts no tags into its Envelopes.
def downOf (links : Links) (i : Nat) (out : Outgoing) : Option Down :=
  match out.target, out.content with
  | .conn u, .envelope connId body _ =>
    (links i u).map fun g => ⟨g, out.msgID, marshalEnvelope connId (marshalBody body) []⟩
  | _, _ => none

def joinOf (p : Up) (out : Outgoing) : Option Join :=
  match out.content with
  | .envelope _ (.roomJoinResp true m _) _ => some ⟨p.server, m, p.gateway, p.client, p.player⟩
  | _ => none

section
variable (links : Links)

def send (s : State) (g : Nat) (c : UInt64) (msg : Message) (i : Nat) (u : UInt64) :
    Option State := do
  let conn ← (s.gateways g).conns.load c
  let route ← routeFor announced msg.msgID
  let data ← wrap c conn msg.data
  if route.backend = svcRoomSvr ∧ links i u = some g then
    some { s with up := s.up ++ [⟨i, u, msg.msgID, data, g, c, conn.auth⟩] }
  else none

def handle (s : State) (p : Up) (env : Env) : State :=
  let (st, outs) := RoomSvr.server.dispatch (s.roomSvrs p.server) ⟨p.msgID, p.data, p.conn, env⟩
  { s with
    roomSvrs := Function.update s.roomSvrs p.server st
    down := s.down ++ outs.filterMap (downOf links p.server)
    joined := s.joined ++ outs.filterMap (joinOf p) }

def respond (s : State) (d : Down) (up : List String) : State :=
  if d.msgID ∈ roomHello.sendMsgIds then
    let (gw, out) := responseRouter (s.gateways d.gateway) d.msgID d.data up
    { s with
      gateways := Function.update s.gateways d.gateway gw
      handed := s.handed +
        out.map fun t => ⟨d.gateway, t, ((s.gateways d.gateway).conns.load t.conn).bind (·.auth)⟩ }
  else s

def step (s : State) : Event → Option State
  | .gateway g ev => (Reconnect.step (s.gateways g) ev).map fun gw =>
    { s with gateways := Function.update s.gateways g gw, opened := openedAfter s.opened g ev }
  | .send g c msg i u => send links s g c msg i u
  | .handle k env => (s.up[k]?).map fun p => handle links { s with up := s.up.eraseIdx k } p env
  | .respond k up => (s.down[k]?).map fun d => respond { s with down := s.down.eraseIdx k } d up

def start (ids : Nat → String) : State := { gateways := fun g => Reconnect.init (ids g) }

/-- A gateway numbers its connections from one, and never gives a number twice. -/
def Fresh (s : State) : Event → Prop
  | .gateway g (.connStart c _) => c ≠ 0 ∧ s.opened.load (g, c) = none
  | _ => True

instance (s : State) : DecidablePred (Fresh s)
  | .gateway g (.connStart c _) => inferInstanceAs (Decidable (c ≠ 0 ∧ s.opened.load (g, c) = none))
  | .gateway _ (.checkReconnect _ _) | .gateway _ (.wake _) | .gateway _ (.timeout _)
  | .gateway _ (.connStop _ _)
  | .gateway _ (.sessionGet _ _) | .gateway _ (.invalidate _) | .gateway _ (.retry _ _)
  | .send _ _ _ _ _
  | .handle _ _ | .respond _ _ => inferInstanceAs (Decidable True)

end

-- ---------------------------------------------------------------------------
-- Gateways
-- ---------------------------------------------------------------------------

theorem msgID_response {gw : Reconnect.State} (h : t ∈ (responseRouter gw msgID data up).2) :
    t.msgID = msgID := by
  unfold responseRouter at h
  split at h
  next => simp at h
  next env _ =>
    unfold handleResponse at h
    dsimp only at h
    split at h
    · split at h
      · simp at h
      · split at h
        · rw [Multiset.mem_singleton.mp h]
        · simp at h
    split at h
    · split at h
      · simp at h
      · rw [Multiset.mem_singleton.mp h]
    · obtain ⟨c, -, rfl⟩ := Multiset.mem_map.mp h
      rfl

theorem response_plain (gw : Reconnect.State) (hc : c ≠ 0) (hlen : data.length < 2 ^ 64)
    (msgID : UInt32)
    (up : List String) : (responseRouter gw msgID (marshalEnvelope c data []) up).2 =
      if (gw.conns.load c).isSome then {⟨c, msgID, data⟩} else 0 := by
  have henv : decodeEnvelope (marshalEnvelope c data []) = .ok ⟨c, data, ∅⟩ :=
    decodeEnvelope_marshal hlen (by simp)
  have htarget : (∅ : Tags).get tagTargetPlayerID = "" := by simp [Tags.get]
  rw [responseRouter, henv]
  simp only [handleResponse, htarget, ne_eq, not_true_eq_false, if_false, hc,
    not_false_eq_true, if_true]
  cases gw.conns.load c <;> rfl

theorem decodeEnvelope_wrap (h : wrap c conn data = some envData) (hlen : data.length < 2 ^ 63) :
    ∃ tags : Tags, decodeEnvelope envData = .ok ⟨c, data, tags⟩ ∧
      (utf8 (tags.get tagPlayerID)).length ≤ 100 := by
  have hdata : data.length < 2 ^ 64 := Nat.lt_trans hlen (by decide)
  unfold wrap at h
  split at h <;> cases h
  next =>
    refine ⟨∅, decodeEnvelope_marshal hdata (by simp), ?_⟩
    have hget : (∅ : Tags).get tagPlayerID = "" := by simp [Tags.get]
    rw [hget]
    decide
  next pid _ =>
    refine ⟨_, decodeEnvelope_tag c hdata (by decide +kernel) pid, ?_⟩
    have hget : (tag tagPlayerID (formatInt pid)).get tagPlayerID = formatInt pid := by
      simp [tag, Tags.get]
    have hle := length_utf8_le (formatInt pid)
    have hdigits := Strconv.length_formatInt_le pid
    rw [hget]
    omega

-- ---------------------------------------------------------------------------
-- RoomSvrs
-- ---------------------------------------------------------------------------

theorem served (st : Running Rooms) (request : Request) :
    (request.msgID = msgIdRoomJoinReq ∨ request.msgID = msgIdRoomLeaveReq) ∧
        Changed st.app request (RoomSvr.server.dispatch st request).1.app
          (RoomSvr.server.dispatch st request).2 ∨
      (RoomSvr.server.dispatch st request).1.app = st.app ∧
        ∀ out ∈ (RoomSvr.server.dispatch st request).2, ∀ connId body tags,
          out.content ≠ .envelope connId body tags := by
  unfold Server.dispatch
  split
  next router hr =>
    have hmem := mem_of_lookup hr
    simp only [RoomSvr.server, newServer, Server.addRouter, List.mem_append, List.mem_cons,
      List.not_mem_nil, or_false, Prod.mk.injEq] at hmem
    rcases hmem with ((⟨-, rfl⟩ | ⟨-, rfl⟩) | ⟨hid, rfl⟩) | ⟨hid, rfl⟩
    · exact .inr ⟨rfl, by simp [pingRouter]⟩
    · exact .inr ⟨rfl, by simp [serviceIdentityRouter]⟩
    · exact .inl ⟨.inl hid, RoomSvr.changed st.app request⟩
    · exact .inl ⟨.inr hid, RoomSvr.changed st.app request⟩
  next => exact .inr ⟨rfl, by simp⟩

section
variable {request : Request} {env : Envelope} {rooms rooms' : Rooms} {outs : List Outgoing}
  (hid : request.msgID = msgIdRoomJoinReq ∨ request.msgID = msgIdRoomLeaveReq)
  (henv : decodeEnvelope request.data = .ok env)

include hid henv

theorem decoded_forwarded (h : RoomSvr.decoded request = some msg) :
    ∃ m, decodeMatchId env.data = .ok m ∧
      (msg = .join m ⟨env.connTags.get tagPlayerID, request.conn, env.connId⟩ ∨
        msg = .leave m (env.connTags.get tagPlayerID)) := by
  cases hm : decodeMatchId env.data with
  | error =>
    rcases hid with hid | hid
    · simp [RoomSvr.decoded_join henv hid, hm, Except.toOption] at h
    · simp [RoomSvr.decoded_leave henv hid, hm, Except.toOption] at h
  | ok m =>
    refine ⟨m, rfl, ?_⟩
    rcases hid with hid | hid
    · rw [RoomSvr.decoded_join henv hid, hm] at h
      exact .inl (Option.some.inj h).symm
    · rw [RoomSvr.decoded_leave henv hid, hm] at h
      exact .inr (Option.some.inj h).symm

theorem removes_forwarded (h : RoomSvr.Removes request m playerID) :
    decodeMatchId env.data = .ok m ∧ playerID = env.connTags.get tagPlayerID := by
  rcases h with h | h
  · obtain ⟨n, hn, heq | heq⟩ := decoded_forwarded hid henv h
    · cases heq
    · cases heq
      exact ⟨hn, rfl⟩
  · obtain ⟨n, hn, heq | heq⟩ := decoded_forwarded hid henv h <;> cases heq

theorem member_changed (hc : Changed rooms request rooms' outs) (hx : x ∈ members rooms' n) :
    x ∈ members rooms n ∨
      x.conn = request.conn ∧ x.senderID = env.connId ∧
        RoomSvr.sendJoinResp request.conn env.connId n true "" ∈ outs := by
  cases hc with
  | refused => exact .inl hx
  | @joined m player hmsg hnew =>
    obtain ⟨_, -, heq | heq⟩ := decoded_forwarded hid henv hmsg
    · cases heq
      by_cases hn : n = m
      · subst hn
        rw [(Matchmaking.members_store rooms n _).1] at hx
        rcases List.mem_append.mp hx with hx | hx
        · exact .inl hx
        · rw [List.mem_singleton.mp hx]
          exact .inr ⟨rfl, rfl, List.mem_cons_self⟩
      · rw [(Matchmaking.members_store rooms m _).2 n hn] at hx
        exact .inl hx
    · cases heq
  | @left m playerID players senderID hmsg hload hin hrest =>
    by_cases hn : n = m
    · subst hn
      rw [(Matchmaking.members_store rooms n _).1] at hx
      refine .inl ?_
      rw [members, hload]
      exact List.mem_of_mem_eraseP hx
    · rw [(Matchmaking.members_store rooms m _).2 n hn] at hx
      exact .inl hx
  | @emptied m playerID players senderID hmsg hload hin hrest =>
    simp only [members, SyncMap.load_delete] at hx
    split at hx
    · cases hx
    · exact .inl hx
  | readdressed hmsg =>
    obtain ⟨_, -, heq | heq⟩ := decoded_forwarded hid henv hmsg <;> cases heq

theorem pushed_changed (hc : Changed rooms request rooms' outs) (hout : out ∈ outs)
    (hpush : out.msgID = msgIdRoomEventPush) :
    ∃ m, ∃ x ∈ members rooms m, ∃ event count, decodeMatchId env.data = .ok m ∧
      (event = "joined" ∨ event = "left") ∧
      out = ⟨.conn x.conn, msgIdRoomEventPush,
        .envelope x.senderID (.roomEventPush m (env.connTags.get tagPlayerID) event count) ∅⟩ := by
  have hids : msgIdRoomJoinResp ≠ msgIdRoomEventPush ∧ msgIdRoomLeaveResp ≠ msgIdRoomEventPush ∧
      msgIdRoomDestroyedPush ≠ msgIdRoomEventPush := by decide
  cases hc with
  | refused _ ho =>
    obtain ⟨_, _, _, _, rfl⟩ := ho out hout
    exact absurd hpush hids.1
  | @joined m player hmsg hnew =>
    obtain ⟨n, hn, heq | heq⟩ := decoded_forwarded hid henv hmsg
    · cases heq
      rcases List.mem_cons.mp hout with rfl | hout
      · exact absurd hpush hids.1
      · obtain ⟨x, hx, rfl⟩ := List.mem_map.mp hout
        exact ⟨m, x, hx, _, _, hn, .inl rfl, rfl⟩
    · cases heq
  | @left m playerID players senderID hmsg hload hin hrest =>
    obtain ⟨hm, rfl⟩ := removes_forwarded hid henv hmsg
    rcases List.mem_append.mp hout with hout | hout
    · obtain ⟨x, hx, rfl⟩ := List.mem_map.mp hout
      refine ⟨m, x, ?_, _, _, hm, .inr rfl, rfl⟩
      rw [members, hload]
      exact List.mem_of_mem_eraseP hx
    · rw [List.mem_singleton.mp hout] at hpush
      exact absurd hpush hids.2.1
  | @emptied m playerID players senderID hmsg hload hin hrest =>
    rcases List.mem_append.mp hout with hout | hout
    · unfold RoomSvr.notifyMatchSvr at hout
      split at hout
      · cases hout
      · rw [List.mem_singleton.mp hout] at hpush
        exact absurd hpush hids.2.2
    · rw [List.mem_singleton.mp hout] at hpush
      exact absurd hpush hids.2.1
  | readdressed => cases hout

end

-- ---------------------------------------------------------------------------
-- The invariant
-- ---------------------------------------------------------------------------

section
variable (links : Links)

/-- The message is what a client's connection sent, in an Envelope with its number. -/
structure Sent (opened : SyncMap (Nat × UInt64) (Option Int64)) (p : Up) : Prop where
  link : links p.server p.conn = some p.gateway
  opened : opened.load (p.gateway, p.client) = some p.player
  nonzero : p.client ≠ 0
  wrapped : ∃ env, decodeEnvelope p.data = .ok env ∧ env.connId = p.client ∧
    (utf8 (env.connTags.get tagPlayerID)).length ≤ 100
  short : p.data.length < 2 ^ 63 + 200

/-- The push is for a connection that joined. -/
def Addressed (joined : List Join) (d : Down) : Prop :=
  ∃ j ∈ joined, j.gateway = d.gateway ∧ ∃ player event count,
    d.data = marshalEnvelope j.client
      (marshalBody (.roomEventPush j.matchID player event count)) [] ∧
    (marshalBody (.roomEventPush j.matchID player event count)).length < 2 ^ 64

structure Inv (s : State) : Prop where
  conns : ∀ g c conn, (s.gateways g).conns.load c = some conn →
    c ≠ 0 ∧ s.opened.load (g, c) = some conn.auth
  up : ∀ p ∈ s.up, Sent links s.opened p
  joined : ∀ j ∈ s.joined, j.client ≠ 0 ∧ s.opened.load (j.gateway, j.client) = some j.player
  members : ∀ i m, ∀ x ∈ members (s.roomSvrs i).app m, ∃ j ∈ s.joined,
    j.server = i ∧ j.matchID = m ∧ links i x.conn = some j.gateway ∧ x.senderID = j.client
  down : ∀ d ∈ s.down, d.msgID = msgIdRoomEventPush → Addressed s.joined d
  handed : ∀ h ∈ s.handed, h.out.msgID = msgIdRoomEventPush → ∃ j ∈ s.joined,
    j.gateway = h.gateway ∧ j.client = h.out.conn ∧ j.player = h.player ∧
      ∃ player event count, h.out.data = marshalBody (.roomEventPush j.matchID player event count)

theorem inv_start (ids : Nat → String) : Inv links (start ids) where
  conns g c conn hc := by simp [start, Reconnect.init] at hc
  up := by simp [start]
  joined := by simp [start]
  members i m x hx := by simp [start, RoomSvr.Concurrent.members] at hx
  down := by simp [start]
  handed := by simp [start]

variable {links}

theorem load_openedAfter (hf : Fresh s (.gateway g ev)) (h : s.opened.load k = some a) :
    (openedAfter s.opened g ev).load k = some a := by
  cases ev with
  | connStart c auth =>
    have hne : k ≠ (g, c) := fun heq => by rw [heq, hf.2] at h; cases h
    rw [openedAfter, SyncMap.load_store_ne _ _ hne, h]
  | _ => exact h

theorem inv_gateway (h : Inv links s) (hf : Fresh s (.gateway g ev))
    (hs : Reconnect.step (s.gateways g) ev = some gw) :
    Inv links { s with
      gateways := Function.update s.gateways g gw
      opened := openedAfter s.opened g ev } where
  conns g' c conn hc := by
    dsimp only at hc ⊢
    rw [Function.update_apply] at hc
    split at hc
    next heq =>
      subst heq
      have hstep : Gateway.Client.step (s.gateways g') (.conn ev) = some gw := hs
      rcases Gateway.Conns.auth_step hstep hc with heq | ⟨old, hold, ha⟩
      · obtain rfl := Gateway.Client.Event.conn.inj heq
        exact ⟨hf.1, SyncMap.load_store_self _ _ _⟩
      · exact (h.conns g' c old hold).imp_right fun ho => ha ▸ load_openedAfter hf ho
    next => exact (h.conns g' c conn hc).imp_right (load_openedAfter hf)
  up p hp := { h.up p hp with opened := load_openedAfter hf (h.up p hp).opened }
  joined j hj := (h.joined j hj).imp_right (load_openedAfter hf)
  members := h.members
  down := h.down
  handed := h.handed

theorem inv_send (h : Inv links s) (hs : send links s g c msg i u = some s') : Inv links s' := by
  simp only [send, Option.bind_eq_bind, Option.bind_eq_some_iff] at hs
  obtain ⟨conn, hc, route, -, data, hwrap, hs⟩ := hs
  split at hs <;> cases hs
  next hroute =>
    obtain ⟨hnonzero, hopened⟩ := h.conns g c conn hc
    obtain ⟨tags, henv, hshort⟩ := decodeEnvelope_wrap hwrap msg.isInt
    have hlen := length_wrap hwrap
    have hint := msg.isInt
    have hsent : Sent links s.opened ⟨i, u, msg.msgID, data, g, c, conn.auth⟩ :=
      ⟨hroute.2, hopened, hnonzero, ⟨_, henv, rfl, hshort⟩, by dsimp only; omega⟩
    refine ⟨h.conns, fun p hp => ?_, h.joined, h.members, h.down, h.handed⟩
    rcases List.mem_append.mp hp with hp | hp
    · exact h.up p hp
    · rw [List.mem_singleton.mp hp]
      exact hsent

theorem mem_joinOf {outs : List Outgoing} {p : Up} {j : Join} (hj : j ∈ outs.filterMap (joinOf p)) :
    j.server = p.server ∧ j.gateway = p.gateway ∧ j.client = p.client ∧ j.player = p.player := by
  obtain ⟨out, -, hout⟩ := List.mem_filterMap.mp hj
  unfold joinOf at hout
  split at hout <;> cases hout
  exact ⟨rfl, rfl, rfl, rfl⟩

theorem length_event (hm : (utf8 m).length < 2 ^ 63 + 200) (hplayer : (utf8 player).length ≤ 100)
    (hevent : event = "joined" ∨ event = "left") (count : Nat) :
    (marshalBody (.roomEventPush m player event count)).length < 2 ^ 64 := by
  have hname : (utf8 event).length ≤ 10 := by rcases hevent with rfl | rfl <;> decide +kernel
  have htext (num : Nat) (s : String) :
      ((textField num s).map fun f => 20 + f.2.length).sum ≤ 20 + (utf8 s).length :=
    sum_unless_le (s = "") (num, .len (utf8 s))
  have hcount : ((countField 4 count).map fun f => 20 + f.2.length).sum ≤ 20 :=
    sum_unless_le (count = 0) (4, .varint count.toUInt64)
  have hsum :=
    Wire.length_fields_le
      (textField 1 m ++ textField 2 player ++ textField 3 event ++ countField 4 count)
  simp only [List.map_append, List.sum_append] at hsum
  have h1 := htext 1 m
  have h2 := htext 2 player
  have h3 := htext 3 event
  rw [marshalBody]
  omega

theorem inv_handle (h : Inv links s) (hp : Sent links s.opened p) (env : Env) :
    Inv links (handle links s p env) := by
  obtain ⟨e, he, hclient, hplayer⟩ := hp.wrapped
  have hserved := served (s.roomSvrs p.server) ⟨p.msgID, p.data, p.conn, env⟩
  have hnew : ∀ j ∈ s.joined, j ∈ (handle links s p env).joined :=
    fun j hj => List.mem_append_left _ hj
  refine ⟨h.conns, h.up, fun j hj => ?_, fun i m x hx => ?_, fun d hd hid => ?_,
    fun out hout hid => ?_⟩
  · rcases List.mem_append.mp hj with hj | hj
    · exact h.joined j hj
    · obtain ⟨-, hg, hc, hplayer⟩ := mem_joinOf hj
      rw [hg, hc, hplayer]
      exact ⟨hp.nonzero, hp.opened⟩
  · have hold : ∀ i, x ∈ members (s.roomSvrs i).app m → ∃ j ∈ (handle links s p env).joined,
        j.server = i ∧ j.matchID = m ∧ links i x.conn = some j.gateway ∧ x.senderID = j.client := by
      intro i hx
      obtain ⟨j, hj, hrest⟩ := h.members i m x hx
      exact ⟨j, hnew j hj, hrest⟩
    simp only [handle, Function.update_apply] at hx
    split at hx
    next heq =>
      subst heq
      rcases hserved with ⟨hid, hc⟩ | ⟨happ, -⟩
      · rcases member_changed hid he hc hx with hx | ⟨hconn, hsender, hresp⟩
        · exact hold _ hx
        · refine ⟨⟨p.server, m, p.gateway, p.client, p.player⟩, ?_, rfl, rfl, hconn ▸ hp.link,
            hsender.trans hclient⟩
          exact List.mem_append_right _ (List.mem_filterMap.mpr ⟨_, hresp, rfl⟩)
      · rw [happ] at hx
        exact hold _ hx
    next => exact hold i hx
  · rcases List.mem_append.mp hd with hd | hd
    · obtain ⟨j, hj, hrest⟩ := h.down d hd hid
      exact ⟨j, hnew j hj, hrest⟩
    · obtain ⟨out, hout, hdown⟩ := List.mem_filterMap.mp hd
      unfold downOf at hdown
      split at hdown
      next u connId body tags htarget hcontent =>
        obtain ⟨g, hg, rfl⟩ := Option.map_eq_some_iff.mp hdown
        rcases hserved with ⟨hmsg, hc⟩ | ⟨-, hplain⟩
        · obtain ⟨m, x, hx, event, count, hm, hevent, rfl⟩ := pushed_changed hmsg he hc hout hid
          cases htarget
          cases hcontent
          obtain ⟨j, hj, -, rfl, hlink, hsender⟩ := h.members p.server m x hx
          have hname := Nat.lt_of_le_of_lt
            (Nat.le_trans (length_decodeMatchId hm) (length_decodeEnvelope he)) hp.short
          refine ⟨j, hnew j hj, Option.some.inj (hlink.symm.trans hg), _, event, count, ?_,
            length_event hname hplayer hevent count⟩
          rw [hsender]
        · exact absurd hcontent (hplain out hout _ _ _)
      next => cases hdown
  · obtain ⟨j, hj, hrest⟩ := h.handed out hout hid
    exact ⟨j, hnew j hj, hrest⟩

theorem inv_respond (h : Inv links s) (hd : d.msgID = msgIdRoomEventPush → Addressed s.joined d)
    (up : List String) :
    Inv links (respond s d up) := by
  unfold respond
  split
  next =>
    refine ⟨fun g c conn hc => ?_, h.up, h.joined, h.members, h.down, fun out hout hid => ?_⟩
    · dsimp only at hc
      rw [Function.update_apply] at hc
      split at hc
      next heq =>
        subst heq
        have hstep : Gateway.Client.step (s.gateways d.gateway) (.response d.msgID d.data up) =
            some (responseRouter (s.gateways d.gateway) d.msgID d.data up).1 := rfl
        rcases Gateway.Conns.auth_step hstep hc with heq | ⟨old, hold, ha⟩
        · cases heq
        · exact ha ▸ h.conns _ c old hold
      next => exact h.conns g c conn hc
    · rcases Multiset.mem_add.mp hout with hout | hout
      · exact h.handed out hout hid
      · obtain ⟨t, ht, rfl⟩ := Multiset.mem_map.mp hout
        have hpush : d.msgID = msgIdRoomEventPush := (msgID_response ht).symm.trans hid
        obtain ⟨j, hj, hg, player, event, count, hdata, hlen⟩ := hd hpush
        obtain ⟨hnonzero, hopened⟩ := h.joined j hj
        rw [hdata, response_plain _ hnonzero hlen] at ht
        split at ht
        next hopen =>
          obtain rfl := Multiset.mem_singleton.mp ht
          obtain ⟨conn, hc⟩ := Option.isSome_iff_exists.mp hopen
          have hauth := (h.conns d.gateway j.client conn hc).2
          rw [← hg, hopened] at hauth
          refine ⟨j, hj, hg, rfl, ?_, player, event, count, rfl⟩
          rw [hc, Option.bind_some]
          exact Option.some.inj hauth
        next => simp at ht
  next => exact h

theorem inv_step (h : Inv links s) (hf : Fresh s e) (hs : step links s e = some s') :
    Inv links s' := by
  cases e with
  | gateway g ev =>
    obtain ⟨gw, hgw, rfl⟩ := Option.map_eq_some_iff.mp hs
    exact inv_gateway h hf hgw
  | send g c msg i u => exact inv_send h hs
  | handle k env =>
    obtain ⟨p, hp, rfl⟩ := Option.map_eq_some_iff.mp hs
    have hmem := List.mem_of_getElem? hp
    have hrest : Inv links { s with up := s.up.eraseIdx k } :=
      ⟨h.conns, fun q hq => h.up q (List.mem_of_mem_eraseIdx hq), h.joined, h.members,
        h.down, h.handed⟩
    exact inv_handle hrest (h.up p hmem) env
  | respond k up =>
    obtain ⟨d, hd, rfl⟩ := Option.map_eq_some_iff.mp hs
    have hmem := List.mem_of_getElem? hd
    have hrest : Inv links { s with down := s.down.eraseIdx k } :=
      ⟨h.conns, h.up, h.joined, h.members, fun q hq => h.down q (List.mem_of_mem_eraseIdx hq),
        h.handed⟩
    exact inv_respond hrest (h.down d hmem) up

/-- An event of a room is handed only to a connection that joined it, and only while
the player who joined has the connection. -/
theorem events_private (ha : Along (step links) Fresh (start ids) es)
    (hr : run (step links) (start ids) es = some s) :
    ∀ h ∈ s.handed, h.out.msgID = msgIdRoomEventPush → ∃ j ∈ s.joined,
      j.gateway = h.gateway ∧ j.client = h.out.conn ∧ j.player = h.player ∧
        ∃ player event count, h.out.data =
          marshalBody (.roomEventPush j.matchID player event count) :=
  (Run.invariant (fun _ _ _ => inv_step) (inv_start links ids) ha hr).handed

end

-- Players 7 and 8 join the same room through gateway 0.
def oneLink : Links := fun i u => if i = 0 ∧ u = 5 then some 0 else none

def joins (c : UInt64) : List Event :=
  [.send 0 c (Matchmaking.aboutM msgIdRoomJoinReq) 0 5, .handle 0 Matchmaking.services]

def bothJoin : List Event :=
  .flatten [[.gateway 0 (.connStart 1 (some 7)), .gateway 0 (.connStart 2 (some 8))],
    joins 1, joins 2, [.respond 2 []]]

-- The push that player 8 joined, handed to the connection with number 1.
def told (player : Int64) : Handed :=
  ⟨0, ⟨1, msgIdRoomEventPush, marshalBody (.roomEventPush "m" "8" "joined" 2)⟩, some player⟩

theorem bothJoin_private :
    ∃ s, run (step oneLink) (start fun _ => "gateway-1") bothJoin = some s ∧ told 7 ∈ s.handed ∧
      ∃ j ∈ s.joined, j.client = 1 ∧ j.player = some 7 := by
  have hrun : ∃ s ∈ run (step oneLink) (start fun _ => "gateway-1") bothJoin,
      told 7 ∈ s.handed := by
    decide +kernel
  obtain ⟨s, hs, hmem⟩ := hrun
  obtain ⟨j, hj, -, hclient, hjoined, -⟩ := events_private (by decide +kernel) hs (told 7) hmem rfl
  exact ⟨s, hs, hmem, j, hj, hclient, hjoined⟩

-- Player 7 leaves the gateway, and player 9 gets the number.
def reused : List Event :=
  .flatten [[.gateway 0 (.connStart 1 (some 7)), .gateway 0 (.connStart 2 (some 8))], joins 1,
    [.gateway 0 (.connStop 1 []), .gateway 0 (.checkReconnect 1 []),
      .gateway 0 (.connStart 1 (some 9))], joins 2,
    [.respond 2 []]]

theorem reused_leaks :
    ∃ s ∈ run (step oneLink) (start fun _ => "gateway-1") reused, told 9 ∈ s.handed ∧
      ∀ j ∈ s.joined, j.player ≠ some 9 := by
  decide +kernel

end Cardwar.System.RoomEvents
