import Cardwar.Gateway.Conns
import Cardwar.System.Matchmaking

/-!
# Which RoomSvr a client's messages go to

Room messages are routed by the property `room_server_id` of the client's connection,
which answers of MatchSvr and restored sessions set. Whatever else happens to the
connection and to the pool of RoomSvr connections, a message goes to the RoomSvr that
was named last, or the client is told that it is offline
(`messages_follow_room`).
-/

namespace Cardwar.System.RoomRouting

open Conf Protocol Codec Pkg Gateway Gateway.Reconnect Gateway.Client Gateway.Conns
open Run (run Along)
open Strconv (formatUint)
open Wire (Bytes)

structure State where
  gw : Reconnect.State
  rooms : Pool
  /-- The RoomSvr last named for a connection; no code reads it. -/
  named : UInt64 → Option String := fun _ => none

inductive Event
  | client (ev : Client.Event)
  | pool (ev : PoolEvent)

def namedAfter (s : State) (ev : Client.Event) (c : UInt64) : Option String :=
  match ev with
  | .conn (.connStart d _) => if c = d then none else s.named c
  | ev => ((given s.gw c ev).load tagRoomSvrID).or (s.named c)

def step (s : State) : Event → Option State
  | .client ev => (Client.step s.gw ev).map fun gw => { s with gw, named := namedAfter s ev }
  | .pool ev => (poolStep s.rooms ev).map fun rooms => { s with rooms }

def start (gw : String) (servers : List ServerNode) : State :=
  { gw := init gw, rooms := dialPool servers (routeFuncFor "direct") }

/-- A connection for which no RoomSvr was named is routed by its number. -/
def State.key (s : State) (c : UInt64) : String := (s.named c).getD (formatUint c)

/-- What becomes of a room message. -/
inductive Follows (s : State) (c : UInt64) (conn : Reconnect.Conn) (msgID : UInt32) (data : Bytes)
    (now : Int64) :
    Forwarded → Prop
  | sent (hid : backend.server.id = s.key c) (hwrap : wrap c conn data = some envData) :
      Follows s c conn msgID data now (.sent backend msgID envData)
  /-- The RoomSvr has no connection, or one without its id. -/
  | failed (hnone : ∀ pe ∈ s.rooms.conns, pe.srv.id = s.key c → ∀ backend,
        pe.healthyConn = some backend → Unnamed pe.entry backend.attempt) :
      Follows s c conn msgID data now (.failed (sendError c msgID now))
  | dropped (hdrop : s.key c = "" ∨ wrap c conn data = none) :
      Follows s c conn msgID data now .dropped

structure Inv (s : State) : Prop where
  tagged : ∀ c conn, s.gw.conns.load c = some conn →
    conn.properties.load tagRoomSvrID = (s.named c).map .string
  pool : ∀ pe ∈ s.rooms.conns, Named pe.srv.id pe.entry

theorem load_opened (auth : Option Int64) : (opened auth).properties.load tagRoomSvrID = none := by
  cases auth with
  | none => rfl
  | some p =>
    have hne : tagRoomSvrID ≠ propPlayerID := by decide
    rw [opened, Option.elim_some, SyncMap.load_store_ne _ _ hne, SyncMap.load_empty]

theorem load_restored (conn : Reconnect.Conn) (tags : Tags) (key : String) (named : Option String)
    (h : conn.properties.load key = named.map .string) :
    (conn.restore tags).properties.load key = ((tags.load key).or named).map .string := by
  rw [Conn.restore, SyncMap.load_storeAll, SyncMap.load_mapVal, h]
  cases tags.load key <;> rfl

theorem tagged_client (h : Inv s) (hs : Client.step s.gw ev = some gw)
    (hc : gw.conns.load c = some conn) :
    conn.properties.load tagRoomSvrID = (namedAfter s ev c).map .string := by
  rw [load_step hs c] at hc
  unfold connAfter at hc
  split at hc
  next d auth =>
    rw [namedAfter]
    split at hc
    next heq =>
      cases hc
      rw [if_pos heq]
      exact load_opened auth
    next hne =>
      rw [if_neg hne]
      exact h.tagged c conn hc
  next d up =>
    split at hc
    next => cases hc
    next => exact h.tagged c conn hc
  next hstart hstop =>
    obtain ⟨old, hold, rfl⟩ := Option.map_eq_some_iff.mp hc
    have hnamed : namedAfter s ev c = ((given s.gw c ev).load tagRoomSvrID).or (s.named c) := by
      unfold namedAfter
      split
      next d auth => exact absurd rfl (hstart d auth)
      next => rfl
    rw [hnamed]
    exact load_restored old _ _ _ (h.tagged c old hold)

theorem inv_step (h : Inv s) (hs : step s e = some s') : Inv s' := by
  cases e with
  | client ev =>
    obtain ⟨gw, hgw, rfl⟩ := Option.map_eq_some_iff.mp hs
    exact ⟨fun c conn hc => tagged_client h hgw hc, h.pool⟩
  | pool ev =>
    obtain ⟨rooms, hrooms, rfl⟩ := Option.map_eq_some_iff.mp hs
    exact ⟨h.tagged, named_poolStep h.pool hrooms⟩

theorem inv_start (gw : String) (servers : List ServerNode) : Inv (start gw servers) :=
  ⟨by simp [start, init], named_dialPool⟩

theorem resolveRouteKey_named (h : Inv s) (hc : s.gw.conns.load c = some conn)
    (routeType : String) :
    resolveRouteKey c conn ⟨svcRoomSvr, tagRoomSvrID, routeType⟩ = s.key c := by
  have hkey : ¬(tagRoomSvrID = "" ∨ tagRoomSvrID = "connId") := by decide
  rw [resolveRouteKey, if_neg hkey, h.tagged c conn hc, State.key]
  cases s.named c <;> rfl

/-- A message of an open connection, with the route of the shipped configuration. -/
theorem messages_follow_room (hr : run step (start gw servers) es = some s)
    (hf : s.rooms.routeFn = .direct) (hreg : reg.backends.load svcRoomSvr = some s.rooms)
    (hroute : routeFor server msgID = some ⟨svcRoomSvr, tagRoomSvrID, routeType⟩)
    (hc : s.gw.conns.load c = some conn) (intn : Nat) (now : Int64) (data : Bytes) :
    Follows s c conn msgID data now (forward server reg intn now c conn msgID data) := by
  have hall : Along step (fun _ _ => True) (start gw servers) es :=
    Run.along_of_forall (fun _ _ _ => trivial) _
  have h : Inv s := Run.invariant (fun _ _ _ h _ hs => inv_step h hs) (inv_start gw servers) hall hr
  have hto : reg.routeTo intn svcRoomSvr (s.key c) = directRoute (s.key c)
      (healthyConns s.rooms) := by
    rw [Registry.routeTo, hreg, Option.bind_some, route, hf, RouteFunc.apply]
  rw [forward, hroute]
  dsimp only
  rw [resolveRouteKey_named h hc, hto]
  split
  next hempty => exact .dropped (.inl hempty)
  next =>
  split
  next hwrap => exact .dropped (.inr hwrap)
  next envData hwrap =>
  split
  next hnone =>
    refine .failed fun pe hpe hid backend hb => ?_
    by_contra hmade
    have hserver := healthyConn_serverID (h.pool pe hpe) hb
    rw [if_neg hmade, hid] at hserver
    have hmem : backend ∈ healthyConns s.rooms := List.mem_filterMap.mpr ⟨pe, hpe, hb⟩
    exact absurd hserver (by simpa using List.find?_eq_none.mp hnone backend hmem)
  next backend hsome =>
    obtain ⟨i, pe, -, hb, hid, -⟩ := directRoute_server h.pool hsome
    refine .sent ?_ hwrap
    rw [(healthyConn_some hb).2.2.1, hid]

def placed : Tags := (tag tagRoomSvrID "roomsvr-2").store tagMatchID "m"

-- MatchSvr places player 7 on the second RoomSvr. The player comes back on another connection,
-- which SessionSvr gives the tags of the first.
def cameBack : List Event :=
  dialed.map .pool ++
  [.client (.conn (.connStart 1 (some 7))),
   .client (.response msgIdMatchResultPush
     (marshalEnvelope 1 [] [(tagRoomSvrID, "roomsvr-2"), (tagMatchID, "m")]) []),
   .client (.conn (.connStop 1 [])), .client (.conn (.connStart 2 (some 7))),
   .client (.conn (.sessionGet
     { playerId := 7, gatewayId := "gateway-1", connTags := placed, disconnectedAt := 5 } []))]

def gatewayReg (s : State) : Registry :=
  { backends := (∅ : SyncMap String Pool).store svcRoomSvr s.rooms, identity := svcGateway }

theorem cameBack_followed :
    ∃ s conn, run step (start "gateway-1" shippedRoomSvrs) cameBack = some s ∧
      s.gw.conns.load 2 = some conn ∧
      s.key 2 = "roomsvr-2" ∧ Follows s 2 conn msgIdRoomJoinReq (marshalMatchId "m") 0
        (forward Matchmaking.announced (gatewayReg s) 0 0 2 conn msgIdRoomJoinReq
          (marshalMatchId "m")) := by
  have hrun : ∃ s ∈ run step (start "gateway-1" shippedRoomSvrs) cameBack,
      (s.gw.conns.load 2).isSome ∧ s.rooms.routeFn = .direct ∧ s.key 2 = "roomsvr-2" := by
    decide +kernel
  obtain ⟨s, hs, hopen, hf, hkey⟩ := hrun
  obtain ⟨conn, hc⟩ := Option.isSome_iff_exists.mp hopen
  have hroute :
      routeFor Matchmaking.announced msgIdRoomJoinReq =
        some ⟨svcRoomSvr, tagRoomSvrID, "direct"⟩ := by
    decide +kernel
  exact ⟨s, conn, hs, hc, hkey, messages_follow_room hs hf
    (SyncMap.load_store_self ..) hroute hc 0 0 _⟩

theorem restarted_failed :
    ∃ s ∈ run step (start "gateway-1" shippedRoomSvrs) (cameBack ++ restart.map .pool),
      ∃ conn ∈ s.gw.conns.load 2, ((healthyConns s.rooms).map (·.server)) = shippedRoomSvrs ∧
        forward Matchmaking.announced (gatewayReg s) 0 0 2 conn msgIdRoomJoinReq
          (marshalMatchId "m") =
          .failed (sendError 2 msgIdRoomJoinReq 0) := by
  decide +kernel

end Cardwar.System.RoomRouting
