import Cardwar.MatchSvr.Router
import Cardwar.RoomSvr.Router

/-!
# Session messages at the services

SessionSvr and the gateway send three messages to RoomSvr and MatchSvr:
SessionForceLeave, SessionReconnected and SessionForceLeaveQueue. Their handlers
do what they should, but a handler runs only for a message id its `main`
registered, and none of the three is (`sessionMessages_iff` with nothing extra).
-/

namespace Cardwar.Services

open Protocol Codec Pkg
open Strconv (formatInt)

section RoomSvr

open RoomSvr

variable {extra : List UInt32} {st : Running Rooms} {request : Request}

theorem forceLeave_iff (h : Distinct st.app) (hin : InRoom st.app m (formatInt player))
    (hid : request.msgID = msgIdSessionForceLeave)
    (hb : Marshals (forceLeave player m) request.data) :
    ¬ InRoom ((serverWith extra).dispatch st request).1.app m (formatInt player) ↔
      msgIdSessionForceLeave ∈ extra := by
  have hnone : server.routers.lookup request.msgID = none := by rw [hid]; rfl
  rw [serverWith, Server.dispatch_addRouters server extra _ hnone, hid]
  split
  next hmem => exact iff_of_true (handle_forceLeave h hid hb) hmem
  next hmem => exact iff_of_false (not_not_intro hin) hmem

theorem reconnected_iff (hin : InRoom st.app m (formatInt player))
    (hid : request.msgID = msgIdSessionReconnected)
    (hb : Marshals (reconnected player m senderID) request.data) :
    Holds ((serverWith extra).dispatch st request).1.app m (formatInt player)
      request.conn senderID ↔
      msgIdSessionReconnected ∈ extra ∨
      Holds st.app m (formatInt player) request.conn senderID := by
  have hnone : server.routers.lookup request.msgID = none := by rw [hid]; rfl
  rw [serverWith, Server.dispatch_addRouters server extra _ hnone, hid]
  split
  next hmem => exact iff_of_true (handle_reconnected hin hid hb) (.inl hmem)
  next hmem => exact ⟨.inr, fun h => h.resolve_left hmem⟩

end RoomSvr

theorem forceLeaveQueue_iff {extra : List UInt32} {st : Running MatchSvr.Matches}
    {request : Request} (honce : st.app.timesQueued matchType player = 1)
    (hid : request.msgID = msgIdSessionForceLeaveQueue)
    (hb : Marshals (MatchSvr.forceLeaveQueue player matchType) request.data) :
    ((MatchSvr.serverWith extra).dispatch st request).1.app.timesQueued matchType player = 0 ↔
      msgIdSessionForceLeaveQueue ∈ extra := by
  have hnone : MatchSvr.server.routers.lookup request.msgID = none := by rw [hid]; rfl
  rw [MatchSvr.serverWith, Server.dispatch_addRouters MatchSvr.server extra _ hnone, hid]
  split
  next hmem =>
    refine iff_of_true ?_ hmem
    have hleft := MatchSvr.handle_forceLeaveQueue hid hb st.app
    rw [honce] at hleft
    exact hleft
  next hmem => exact iff_of_false (by rw [honce]; decide) hmem

/-- The services of `main` with routers registered for the messages in `extra`,
in every state RoomSvr reaches: a session message takes effect exactly if it is
among them, or if there was nothing to change. -/
theorem sessionMessages_iff (extra : List UInt32) :
    (∀ st request player m, RoomSvr.Reached extra st → RoomSvr.InRoom st.app m (formatInt player) →
      (request.msgID = msgIdSessionForceLeave →
        Marshals (RoomSvr.forceLeave player m) request.data →
        (¬ RoomSvr.InRoom ((RoomSvr.serverWith extra).dispatch st request).1.app m
          (formatInt player) ↔
          msgIdSessionForceLeave ∈ extra)) ∧
      ∀ senderID, request.msgID = msgIdSessionReconnected →
        Marshals (RoomSvr.reconnected player m senderID) request.data →
        (RoomSvr.Holds ((RoomSvr.serverWith extra).dispatch st request).1.app m (formatInt player)
            request.conn senderID ↔
          msgIdSessionReconnected ∈ extra ∨
            RoomSvr.Holds st.app m (formatInt player) request.conn senderID)) ∧
    ∀ (st : Running MatchSvr.Matches) request player matchType,
      st.app.timesQueued matchType player = 1 → request.msgID = msgIdSessionForceLeaveQueue →
      Marshals (MatchSvr.forceLeaveQueue player matchType) request.data →
      (((MatchSvr.serverWith extra).dispatch st request).1.app.timesQueued matchType player = 0 ↔
        msgIdSessionForceLeaveQueue ∈ extra) := by
  refine ⟨fun st request player m hst hin => ⟨fun hid hb => ?_, fun senderID hid hb => ?_⟩, ?_⟩
  · exact forceLeave_iff (RoomSvr.distinct_reached hst) hin hid hb
  · exact reconnected_iff hin hid hb
  · exact fun st request player matchType honce hid hb => forceLeaveQueue_iff honce hid hb

def deliver (msgID : UInt32) (conn : UInt64) (data : Wire.Bytes) : Request :=
  ⟨msgID, data, conn, { reg := { identity := Conf.svcRoomSvr } }⟩

def join7 : Request :=
  deliver msgIdRoomJoinReq 1
    (Wire.fields [(1, .varint 3), (2, .len (Wire.fields [(1, .len (utf8 "m"))])),
    (3, .len (Wire.fields (entryFields (tagPlayerID, "7"))))])

def forceLeave7 : Request :=
  deliver msgIdSessionForceLeave 2
    (Wire.fields (sessionFields (RoomSvr.forceLeave 7 "m") [(tagMatchID, "m")]))

def reconnected7 : Request :=
  deliver msgIdSessionReconnected 2 (Wire.fields (sessionFields (RoomSvr.reconnected 7 "m" 9)
    [(tagPlayerID, "7"), (tagMatchID, "m"), (tagSenderID, "9")]))

def forceLeaveQueue7 : Request :=
  deliver msgIdSessionForceLeaveQueue 2
    (Wire.fields (sessionFields (MatchSvr.forceLeaveQueue 7 "1v1") [(tagMatchType, "1v1")]))

def queued7 : Running MatchSvr.Matches :=
  { app :=
      { queues := (∅ : SyncMap String (List MatchSvr.QueuedPlayer)).store "1v1" [⟨7, 0, 1, 3⟩] } }

theorem marshals7 :
    Marshals (RoomSvr.forceLeave 7 "m") forceLeave7.data ∧
    Marshals (RoomSvr.reconnected 7 "m" 9) reconnected7.data ∧
    Marshals (MatchSvr.forceLeaveQueue 7 "1v1") forceLeaveQueue7.data := by
  refine ⟨⟨_, ⟨?_, ?_⟩, rfl, ?_⟩, ⟨_, ⟨?_, ?_⟩, rfl, ?_⟩, ⟨_, ⟨?_, ?_⟩, rfl, ?_⟩⟩ <;> decide +kernel

def sessionMsgIDs : List UInt32 :=
  [msgIdSessionForceLeave, msgIdSessionReconnected, msgIdSessionForceLeaveQueue]

def joined7 : Running RoomSvr.Rooms := (RoomSvr.serverWith sessionMsgIDs).after ⟨∅, ∅⟩ [join7]

theorem registered_takeEffect :
    ¬ RoomSvr.InRoom ((RoomSvr.serverWith sessionMsgIDs).dispatch joined7 forceLeave7).1.app "m"
      (formatInt 7) ∧
    RoomSvr.Holds ((RoomSvr.serverWith sessionMsgIDs).dispatch joined7 reconnected7).1.app "m"
      (formatInt 7) 2 9 ∧
    ((MatchSvr.serverWith sessionMsgIDs).dispatch queued7 forceLeaveQueue7).1.app.timesQueued
      "1v1" 7 = 0 := by
  obtain ⟨hroom, hqueue⟩ := sessionMessages_iff sessionMsgIDs
  have hin : RoomSvr.InRoom joined7.app "m" (formatInt 7) :=
    ⟨[⟨"7", 1, 3⟩], by decide +kernel, _, List.mem_singleton_self _, by decide +kernel⟩
  refine ⟨?_, ?_, ?_⟩
  · exact ((hroom joined7 forceLeave7 7 "m" ⟨_, rfl⟩ hin).1 rfl marshals7.1).mpr (by decide)
  · exact ((hroom joined7 reconnected7 7 "m" ⟨_, rfl⟩ hin).2 9 rfl marshals7.2.1).mpr
      (.inl (by decide))
  · exact (hqueue queued7 forceLeaveQueue7 7 "1v1" (by decide) rfl marshals7.2.2).mpr (by decide)

theorem sessionMessages_dropped :
    (RoomSvr.server.after ⟨∅, ∅⟩ [join7]).app.load "m" = some [⟨formatInt 7, 1, 3⟩] ∧
    (RoomSvr.server.after ⟨∅, ∅⟩ [join7, forceLeave7]).app.load "m" = some [⟨formatInt 7, 1, 3⟩] ∧
    (RoomSvr.server.after ⟨∅, ∅⟩ [join7, reconnected7]).app.load "m" = some [⟨formatInt 7, 1, 3⟩] ∧
    queued7.app.timesQueued "1v1" 7 = 1 ∧
    (MatchSvr.server.dispatch queued7 forceLeaveQueue7).1.app.timesQueued "1v1" 7 = 1 := by
  decide +kernel

end Cardwar.Services
