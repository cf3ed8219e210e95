import Cardwar.RoomSvr.Members

/-!
# Whom RoomSvr answers

A client is named by the gateway's connection and the connection id in the
Envelope. A request carries both, and so does a member's entry, from the join or
the last reconnect. RoomRouter takes the connection from the request and, when a
player leaves, the id from the entry; so the answer gets to the right client
only where the two agree (`rightClient_iff`).

The session messages are raw SessionData, which RoomRouter decodes as an Envelope
before it looks at the message id (`session_handled`).
-/

namespace Cardwar.RoomSvr

open Protocol Codec Pkg Conf
open Concurrent (members)
open Strconv (formatInt)

def responses (msgID : UInt32) (outs : List Outgoing) : List Outgoing :=
  outs.filter (·.msgID = msgID)

/-- There is one response of this kind, to this client. -/
def Answered (msgID : UInt32) (outs : List Outgoing) (conn senderID : UInt64) : Prop :=
  ∃ out body tags, responses msgID outs = [out] ∧ out.target = .conn conn ∧
    out.content = .envelope senderID body tags

def member (rooms : Rooms) (m playerID : String) : Option RoomPlayer :=
  (members rooms m).find? (·.playerID = playerID)

theorem responses_broadcast (hid : msgID ≠ msgIdRoomEventPush) (m playerID event : String)
    (players : List RoomPlayer) (count : Nat) :
    responses msgID (broadcastRoomEvent m players playerID event count) = [] := by
  refine List.filter_eq_nil_iff.mpr fun out hout => ?_
  obtain ⟨p, -, rfl⟩ := List.mem_map.mp hout
  simpa using Ne.symm hid

theorem responses_notify (hid : msgID ≠ msgIdRoomDestroyedPush) (env : Env) (m : String) :
    responses msgID (notifyMatchSvr env m) = [] := by
  refine List.filter_eq_nil_iff.mpr fun out hout => ?_
  unfold notifyMatchSvr at hout
  split at hout
  next => cases hout
  next =>
    rw [List.mem_singleton.mp hout]
    simpa using Ne.symm hid

theorem answered_join (rooms : Rooms) (env : Envelope) (conn : UInt64) :
    Answered msgIdRoomJoinResp (handleJoin rooms env conn).2 conn env.connId := by
  unfold handleJoin
  split
  next => exact ⟨_, _, _, rfl, rfl, rfl⟩
  next m _ =>
    dsimp only
    split
    next => exact ⟨_, _, _, rfl, rfl, rfl⟩
    next =>
      refine ⟨sendJoinResp conn env.connId m true "", _, _, ?_, rfl, rfl⟩
      rw [responses, List.filter_cons_of_pos (by rfl)]
      split
      · exact congrArg _ (responses_broadcast (by decide) ..)
      · rfl

theorem responses_removePlayer (env : Env) (rooms : Rooms) (conn : UInt64) (m playerID : String) :
    responses msgIdRoomLeaveResp (removePlayer env rooms conn m playerID).2 =
      ((member rooms m playerID).map fun x => leaveResp conn x.senderID).toList := by
  unfold removePlayer
  split
  next hload => simp [member, members, hload, responses]
  next players hload =>
    have hmember : member rooms m playerID = players.find? (·.playerID = playerID) := by
      simp [member, members, hload]
    rw [hmember]
    cases players.find? (·.playerID = playerID) with
    | none => rfl
    | some x =>
      dsimp only
      split
      · rw [responses, List.filter_append]
        exact congrArg (· ++ _) (responses_notify (by decide) env m)
      · rw [responses, List.filter_append]
        exact congrArg (· ++ _) (responses_broadcast (by decide) ..)

theorem answered_removePlayer (env : Env) (rooms : Rooms) (conn g k : UInt64)
    (m playerID : String) :
    Answered msgIdRoomLeaveResp (removePlayer env rooms conn m playerID).2 g k ↔
      ∃ x, member rooms m playerID = some x ∧ conn = g ∧ x.senderID = k := by
  unfold Answered
  rw [responses_removePlayer]
  cases member rooms m playerID with
  | none => simp
  | some x =>
    constructor
    · rintro ⟨out, body, tags, hout, htarget, hcontent⟩
      obtain rfl := List.singleton_inj.mp hout
      exact ⟨x, rfl, Target.conn.inj htarget, (Content.envelope.inj hcontent).1⟩
    · rintro ⟨y, hy, rfl, rfl⟩
      obtain rfl := Option.some.inj hy
      exact ⟨_, _, _, rfl, rfl, rfl⟩

theorem handle_session (h : Marshals data request.data) (rooms : Rooms) :
    (request.msgID = msgIdSessionReconnected →
      handle rooms request = handleReconnected rooms request) ∧
      (request.msgID = msgIdSessionForceLeave →
        handle rooms request = handleForceLeave rooms request) := by
  have henv := decodeEnvelope_session h
  constructor
  · intro hid
    simp only [handle, henv, hid]
    rfl
  · intro hid
    simp only [handle, henv, hid]
    rfl

theorem toNat_toUInt64 (n : Int64) : (n.toUInt64.toNat : Int) = n.toInt % 2 ^ 64 := by
  have hint : n.toInt = Int.bmod n.toUInt64.toNat (2 ^ 64) := BitVec.toInt_eq_toNat_bmod n.toBitVec
  have hlt : n.toUInt64.toNat < 2 ^ 64 := n.toUInt64.toNat_lt
  have hmod : Int.bmod n.toUInt64.toNat (2 ^ 64) % ((2 ^ 64 : Nat) : Int) =
      n.toUInt64.toNat % ((2 ^ 64 : Nat) : Int) :=
    Int.bmod_emod
  omega

/-- The bytes of a SessionData are those of an Envelope too, so RoomRouter hands
the message to its handler, which reads the SessionData back. -/
theorem session_handled (playerId : Int64) (gatewayId : String) (connTags : Tags)
    (disconnectedAt : Int64)
    (h : Marshals ⟨playerId, gatewayId, connTags, disconnectedAt.toInt⟩ bs) :
    (∃ env, decodeEnvelope bs = .ok env ∧ (env.connId.toNat : Int) = playerId.toInt % 2 ^ 64 ∧
      env.data = utf8 gatewayId ∧ env.connTags = connTags) ∧
    decodeSessionData bs = .ok ⟨playerId, gatewayId, connTags, disconnectedAt.toInt⟩ ∧
    ∀ rooms request, request.data = bs →
      (request.msgID = msgIdSessionReconnected →
        handle rooms request = handleReconnected rooms request) ∧
      (request.msgID = msgIdSessionForceLeave →
        handle rooms request = handleForceLeave rooms request) := by
  refine ⟨⟨_, decodeEnvelope_session h, toNat_toUInt64 playerId, rfl, rfl⟩, ?_, ?_⟩
  · rw [decodeSessionData_marshal h, Int64.ofInt_toInt]
  · rintro rooms request rfl
    exact handle_session h rooms

-- A negative player id, and a disconnect time, which an Envelope does not have.
def guest : SessionData := ⟨-7, "gw-1", tag tagMatchID "m", 1000⟩

def guestBytes : Wire.Bytes := Wire.fields (sessionFields guest [(tagMatchID, "m")])

theorem guest_handled :
    ∃ env, decodeEnvelope guestBytes = .ok env ∧ (env.connId.toNat : Int) = 18446744073709551609 ∧
      env.data = utf8 "gw-1" ∧ decodeSessionData guestBytes = .ok guest := by
  have h : Marshals ⟨-7, "gw-1", tag tagMatchID "m", (1000 : Int64).toInt⟩ guestBytes := by
    refine ⟨[(tagMatchID, "m")], ⟨?_, ?_⟩, ?_, ?_⟩ <;> decide +kernel
  obtain ⟨⟨env, henv, hid, hdata, -⟩, hback, -⟩ :=
    session_handled (-7) "gw-1" (tag tagMatchID "m") 1000 h
  exact ⟨env, henv, hid, hdata, hback⟩

/-- A join or leave is answered once, where it came from, and a forced leave once,
where the member's entry says. -/
structure RightClient (rooms : Rooms) (request : Request) : Prop where
  join : ∀ env m, request.msgID = msgIdRoomJoinReq → decodeEnvelope request.data = .ok env →
    decodeMatchId env.data = .ok m →
    Answered msgIdRoomJoinResp (handle rooms request).2 request.conn env.connId
  leave : ∀ env m, request.msgID = msgIdRoomLeaveReq → decodeEnvelope request.data = .ok env →
    decodeMatchId env.data = .ok m →
    Answered msgIdRoomLeaveResp (handle rooms request).2 request.conn env.connId
  forceLeave : ∀ data x, request.msgID = msgIdSessionForceLeave → Marshals data request.data →
    member rooms (data.connTags.get tagMatchID) (formatInt data.playerId) = some x →
    Answered msgIdRoomLeaveResp (handle rooms request).2 x.conn x.senderID

/-- A player who leaves is in the room, under the id of the connection the request
comes from; one who is forced out joined over the connection that says so. -/
structure Addressed (rooms : Rooms) (request : Request) : Prop where
  leave : ∀ env m, request.msgID = msgIdRoomLeaveReq → decodeEnvelope request.data = .ok env →
    decodeMatchId env.data = .ok m →
    ∃ x, member rooms m (env.connTags.get tagPlayerID) = some x ∧ x.senderID = env.connId
  forceLeave : ∀ data x, request.msgID = msgIdSessionForceLeave → Marshals data request.data →
    member rooms (data.connTags.get tagMatchID) (formatInt data.playerId) = some x →
    x.conn = request.conn

theorem handle_leave_eq (hid : request.msgID = msgIdRoomLeaveReq)
    (henv : decodeEnvelope request.data = .ok env) (hm : decodeMatchId env.data = .ok m)
    (rooms : Rooms) :
    handle rooms request = removePlayer request.env rooms request.conn m
      (env.connTags.get tagPlayerID) := by
  have hne : msgIdRoomLeaveReq ≠ msgIdRoomJoinReq := by decide
  simp only [handle, henv, hid, if_neg hne, if_true, handleLeave, hm]

theorem handle_forceLeave_eq (hid : request.msgID = msgIdSessionForceLeave)
    (h : Marshals data request.data) (rooms : Rooms) :
    handle rooms request = removePlayer request.env rooms request.conn
      (data.connTags.get tagMatchID)
      (formatInt data.playerId) := by
  rw [(handle_session h rooms).2 hid, handleForceLeave, decodeSessionData_marshal h]

theorem answered_leave (hid : request.msgID = msgIdRoomLeaveReq)
    (henv : decodeEnvelope request.data = .ok env) (hm : decodeMatchId env.data = .ok m)
    (rooms : Rooms) :
    Answered msgIdRoomLeaveResp (handle rooms request).2 request.conn env.connId ↔
      ∃ x, member rooms m (env.connTags.get tagPlayerID) = some x ∧ x.senderID = env.connId := by
  rw [handle_leave_eq hid henv hm, answered_removePlayer]
  simp

theorem answered_forceLeave (hid : request.msgID = msgIdSessionForceLeave)
    (h : Marshals data request.data)
    (hx : member rooms (data.connTags.get tagMatchID) (formatInt data.playerId) = some x) :
    Answered msgIdRoomLeaveResp (handle rooms request).2 x.conn x.senderID ↔
      x.conn = request.conn := by
  rw [handle_forceLeave_eq hid h, answered_removePlayer, hx]
  simp [eq_comm]

/-- In every state, for every message: the response goes to the right client
exactly if the message comes from where the entry says. -/
theorem rightClient_iff (rooms : Rooms) (request : Request) :
    RightClient rooms request ↔ Addressed rooms request := by
  constructor
  · intro h
    exact ⟨fun env m hid henv hm => (answered_leave hid henv hm rooms).mp
      (h.leave env m hid henv hm),
      fun data x hid hb hx => (answered_forceLeave hid hb hx).mp (h.forceLeave data x hid hb hx)⟩
  · intro h
    refine ⟨fun env m hid henv _ => ?_,
      fun env m hid henv hm => (answered_leave hid henv hm rooms).mpr (h.leave env m hid henv hm),
      fun data x hid hb hx => (answered_forceLeave hid hb hx).mpr (h.forceLeave data x hid hb hx)⟩
    have hjoin : handle rooms request = handleJoin rooms env request.conn := by
      simp only [handle, henv, hid, if_true]
    rw [hjoin]
    exact answered_join rooms env request.conn

-- Player 7 joins over gateway connection 1, as client 3.
def joinedByGateway1 : Rooms := after [fromGateway 1 3 msgIdRoomJoinReq "m" "7"]

def leaveByGateway2 : Request := fromGateway 2 5 msgIdRoomLeaveReq "m" "7"

def forceLeaveBySessionSvr : Request :=
  ⟨msgIdSessionForceLeave, Wire.fields (sessionFields (forceLeave 7 "m") [(tagMatchID, "m")]), 9,
    { reg := { identity := svcRoomSvr } }⟩

/-- The leave from another gateway is answered to client 3 of that gateway, and
the forced leave on SessionSvr's connection. -/
theorem other_client_answered :
    (handle joinedByGateway1 leaveByGateway2).2 = [leaveResp 2 3] ∧
      (handle joinedByGateway1 forceLeaveBySessionSvr).2 = [leaveResp 9 3] ∧
      ¬ RightClient joinedByGateway1 leaveByGateway2 ∧
      ¬ RightClient joinedByGateway1 forceLeaveBySessionSvr := by
  have hmember : member joinedByGateway1 "m" "7" = some ⟨"7", 1, 3⟩ := by decide +kernel
  have henv : decodeEnvelope leaveByGateway2.data =
      .ok ⟨5, marshalMatchId "m", (∅ : Tags).store tagPlayerID "7"⟩ :=
    decodeEnvelope_marshal (by decide +kernel) (by decide +kernel)
  have hm : decodeMatchId (marshalMatchId "m") = .ok "m" :=
    decodeMatchId_marshal (by decide +kernel)
  have hforce : Marshals (forceLeave 7 "m") forceLeaveBySessionSvr.data := by
    refine ⟨[(tagMatchID, "m")], ⟨?_, ?_⟩, ?_, ?_⟩ <;> decide +kernel
  refine ⟨by decide +kernel, by decide +kernel, fun h => ?_, fun h => ?_⟩
  · obtain ⟨x, hx, hid⟩ :=
      (answered_leave rfl henv hm joinedByGateway1).mp (h.leave _ _ rfl henv hm)
    obtain rfl := Option.some.inj (hmember.symm.trans hx)
    exact absurd hid (by decide)
  · have hconn := (answered_forceLeave rfl hforce hmember).mp (h.forceLeave _ _ rfl hforce hmember)
    exact absurd hconn (by decide)

end Cardwar.RoomSvr
