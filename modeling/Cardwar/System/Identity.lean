import Cardwar.ChatSvr.Router
import Cardwar.Gateway.PlayerConns
import Cardwar.MatchSvr.Fifo
import Cardwar.RoomSvr.Members

/-!
# Who a message is from

A gateway does not look into what its clients send. The services take the
sender from the tag of the Envelope around it, which the gateway fills from a
property of the connection, and tags of answers become properties of the same
connection. No answer overwrites the player, so the services act for the player
whose token opened the connection (`sender_authentic`).
-/

namespace Cardwar.System.Identity

open Protocol Codec Pkg Gateway Gateway.Reconnect Gateway.Client Gateway.PlayerConns
open MatchSvr (Matches QueuedPlayer requiredPlayers)
open MatchSvr.Fifo (resultPush)
open RoomSvr (Rooms RoomPlayer Removes)
open RoomSvr.Concurrent (members ids)
open Wire (Bytes)
open Strconv (formatInt)

/-- The entry is the last one of its queue. Once the entries are enough for a
match, the oldest leave the queue, and each of them is told who is in the match. -/
structure Enters (st : Matches) (matchType : String) (entry : QueuedPlayer) (st' : Matches)
    (outs : List Outgoing) : Prop where
  others : ∀ t ≠ matchType, st'.waiting t = st.waiting t
  waits : (st.waiting matchType ++ [entry]).length < requiredPlayers matchType →
    st'.waiting matchType = st.waiting matchType ++ [entry] ∧ ∀ out ∈ outs,
      out.msgID ≠ msgIdMatchResultPush
  plays : ∀ oldest rest, st.waiting matchType ++ [entry] = oldest ++ rest →
    oldest.length = requiredPlayers matchType →
    st'.waiting matchType = rest ∧ ∃ matchID serverID,
      outs = oldest.map (resultPush matchID serverID matchType (oldest.map (·.playerID)))

/-- The entry is the last one of its room, if its player was not there. -/
structure Joins (rooms : Rooms) (m : String) (entry : RoomPlayer) (rooms' : Rooms) : Prop where
  others : ∀ n ≠ m, rooms'.load n = rooms.load n
  again : entry.playerID ∈ ids rooms m → rooms' = rooms
  joins : entry.playerID ∉ ids rooms m → rooms'.load m = some (members rooms m ++ [entry])

/-- The first entry of the player leaves the room, and a room without entries goes. -/
structure Leaves (rooms : Rooms) (m playerID : String) (rooms' : Rooms) : Prop where
  others : ∀ n ≠ m, rooms'.load n = rooms.load n
  absent : playerID ∉ ids rooms m → rooms' = rooms
  leaves : ∀ pre entry post, rooms.load m = some (pre ++ entry :: post) →
    entry.playerID = playerID →
    (∀ p ∈ pre, p.playerID ≠ playerID) →
    rooms'.load m = if pre ++ post = [] then none else some (pre ++ post)

def EventsOf (playerID : String) (outs : List Outgoing) : Prop :=
  ∀ out ∈ outs, ∀ connId m other event count tags,
    out.content = .envelope connId (.roomEventPush m other event count) tags → other = playerID

/-- What the services do with a forwarded message, they do for player `p` on
the gateway's connection `c`, whatever `data` is inside. -/
structure ActsFor (p : Int64) (c : UInt64) (data envData : Bytes) : Prop where
  chat : ∀ conns now conn, ∀ push ∈ ChatSvr.handle conns now conn envData, ∃ connId order resp,
    push.data = marshalEnvelope connId (marshalChatResp resp) order ∧ resp.senderPlayerId = p
  enter : ∀ st request req, request.msgID = msgIdMatchEnterReq → request.data = envData →
    decodeMatchEnterReq data = .ok req →
    Enters st req.matchType ⟨p, req.elo, request.conn, c⟩ (MatchSvr.handle st request).1
      (MatchSvr.handle st request).2
  join : ∀ rooms request m, request.msgID = msgIdRoomJoinReq → request.data = envData →
    decodeMatchId data = .ok m →
    Joins rooms m ⟨formatInt p, request.conn, c⟩ (RoomSvr.handle rooms request).1 ∧
      EventsOf (formatInt p) (RoomSvr.handle rooms request).2
  leave : ∀ rooms request m, request.msgID = msgIdRoomLeaveReq → request.data = envData →
    decodeMatchId data = .ok m →
    Leaves rooms m (formatInt p) (RoomSvr.handle rooms request).1 ∧
      EventsOf (formatInt p) (RoomSvr.handle rooms request).2

theorem enters_handle (hm : MatchSvr.Fifo.message request = some (.enter matchType entry))
    (st : Matches) :
    Enters st matchType entry (MatchSvr.handle st request).1 (MatchSvr.handle st request).2 := by
  by_cases hfull : requiredPlayers matchType ≤ (st.waiting matchType ++ [entry]).length
  · obtain ⟨hqueues, matchID, serverID, houts⟩ := MatchSvr.Fifo.handle_full hm st hfull
    refine ⟨fun t ht => by rw [hqueues, if_neg ht],
      fun hshort => by omega, fun oldest rest heq hlen => ?_⟩
    rw [hqueues, if_pos rfl, houts, heq, ← hlen, List.drop_left, List.take_left]
    exact ⟨rfl, matchID, serverID, rfl⟩
  · obtain ⟨hqueues, hpush⟩ := MatchSvr.Fifo.handle_short hm st (Nat.lt_of_not_ge hfull)
    refine ⟨fun t ht => by rw [hqueues, if_neg ht], fun _ => ⟨by rw [hqueues, if_pos rfl], ?_⟩, ?_⟩
    · simpa [MatchSvr.Fifo.pushes] using hpush
    · intro oldest rest heq hlen
      rw [heq, List.length_append] at hfull
      omega

theorem eventsOf_broadcast (m : String) (players : List RoomPlayer) (playerID event : String)
    (count : Nat) :
    EventsOf playerID (RoomSvr.broadcastRoomEvent m players playerID event count) := by
  rintro out hout connId m' other event' count' tags heq
  obtain ⟨p, -, rfl⟩ := List.mem_map.mp hout
  cases heq
  rfl

theorem joins_changed (hc : RoomSvr.Changed rooms request rooms' outs)
    (hmsg : RoomSvr.decoded request = some (.join m entry)) :
    Joins rooms m entry rooms' ∧ EventsOf entry.playerID outs := by
  cases hc with
  | refused hno ho =>
    have hin : entry.playerID ∈ ids rooms m := not_not.mp (hno _ hmsg)
    refine ⟨⟨fun _ _ => rfl, fun _ => rfl, fun hnot => absurd hin hnot⟩, fun out hout => ?_⟩
    obtain ⟨conn, senderID, m', error, rfl⟩ := ho out hout
    rintro _ _ _ _ _ _ ⟨⟩
  | joined hmsg' hnew =>
    cases hmsg.symm.trans hmsg'
    refine ⟨⟨fun n hn => SyncMap.load_store_ne _ _ hn, fun hin => absurd hin hnew,
      fun _ => SyncMap.load_store_self ..⟩,
      fun out hout => ?_⟩
    rcases List.mem_cons.mp hout with rfl | hout
    · rintro _ _ _ _ _ _ ⟨⟩
    · exact eventsOf_broadcast _ _ _ _ _ out hout
  | left hmsg' => exact absurd hmsg' (RoomSvr.not_removes_join hmsg)
  | emptied hmsg' => exact absurd hmsg' (RoomSvr.not_removes_join hmsg)
  | readdressed hmsg' => cases hmsg.symm.trans hmsg'

theorem eraseP_first {pre post : List RoomPlayer} (hentry : entry.playerID = playerID)
    (hpre : ∀ p ∈ pre, p.playerID ≠ playerID) :
    (pre ++ entry :: post).eraseP (·.playerID = playerID) = pre ++ post := by
  rw [List.eraseP_append_right _ (by simpa using hpre),
    List.eraseP_cons_of_pos (by simpa using hentry)]

theorem leaves_changed (hc : RoomSvr.Changed rooms request rooms' outs)
    (hmsg : Removes request m playerID) :
    Leaves rooms m playerID rooms' ∧ EventsOf playerID outs := by
  have hresp (conn senderID : UInt64) : EventsOf playerID [RoomSvr.leaveResp conn senderID] := by
    intro out hout
    obtain rfl := List.mem_singleton.mp hout
    rintro _ _ _ _ _ _ ⟨⟩
  cases hc with
  | refused hno ho =>
    have hnot : playerID ∉ ids rooms m := by
      intro hin
      obtain ⟨msg, hdec, hacc⟩ := hmsg.accepted hin
      exact hno msg hdec hacc
    refine ⟨⟨fun _ _ => rfl, fun _ => rfl, fun pre entry post hload hentry _ => ?_⟩,
      fun out hout => ?_⟩
    · rw [RoomSvr.ids_of_load hload] at hnot
      simp [hentry] at hnot
    · obtain ⟨conn, senderID, m', error, rfl⟩ := ho out hout
      rintro _ _ _ _ _ _ ⟨⟩
  | joined hmsg' => exact absurd hmsg (RoomSvr.not_removes_join hmsg')
  | left hmsg' hload hin hrest =>
    obtain ⟨rfl, rfl⟩ := hmsg.inj hmsg'
    refine ⟨⟨fun n hn => SyncMap.load_store_ne _ _ hn, fun hnot => ?_,
      fun pre entry post hload' hentry hpre => ?_⟩, ?_⟩
    · exact absurd (RoomSvr.ids_of_load hload ▸ hin) hnot
    · obtain rfl := Option.some.inj (hload'.symm.trans hload)
      rw [eraseP_first hentry hpre] at hrest ⊢
      rw [SyncMap.load_store_self, if_neg hrest]
    · intro out hout
      exact (List.mem_append.mp hout).elim (eventsOf_broadcast _ _ _ _ _ out) (hresp _ _ out)
  | emptied hmsg' hload hin hrest =>
    obtain ⟨rfl, rfl⟩ := hmsg.inj hmsg'
    refine ⟨⟨fun n hn => SyncMap.load_delete_ne _ hn, fun hnot => ?_,
      fun pre entry post hload' hentry hpre => ?_⟩, ?_⟩
    · exact absurd (RoomSvr.ids_of_load hload ▸ hin) hnot
    · obtain rfl := Option.some.inj (hload'.symm.trans hload)
      rw [eraseP_first hentry hpre] at hrest
      rw [SyncMap.load_delete_self, if_pos hrest]
    · intro out hout
      refine (List.mem_append.mp hout).elim (fun hnotice => ?_) (hresp _ _ out)
      unfold RoomSvr.notifyMatchSvr at hnotice
      split at hnotice
      next => cases hnotice
      next =>
        obtain rfl := List.mem_singleton.mp hnotice
        rintro _ _ _ _ _ _ ⟨⟩
  | readdressed hmsg' => exact absurd hmsg (RoomSvr.not_removes_reconnected hmsg')

section Decoded

variable {p : Int64} {c : UInt64} {data envData : Bytes}

theorem get_playerTag (p : Int64) :
    (tag tagPlayerID (formatInt p)).get tagPlayerID = formatInt p := by
  simp [tag, Tags.get]

theorem chat_sender (henv : decodeEnvelope envData = .ok ⟨c, data, tag tagPlayerID (formatInt p)⟩)
    (h : push ∈ ChatSvr.handle conns now conn envData) :
    ∃ connId order resp, push.data = marshalEnvelope connId (marshalChatResp resp) order ∧
      resp.senderPlayerId = p := by
  rw [ChatSvr.handle, henv] at h
  dsimp only at h
  split at h
  next => cases h
  next req hreq =>
    obtain ⟨-, connId, order, hdata⟩ := ChatSvr.respond_data h
    exact ⟨connId, order, _, hdata, by rw [get_playerTag, Strconv.parseInt_formatInt]⟩

theorem enter_sender (henv : decodeEnvelope envData = .ok ⟨c, data, tag tagPlayerID (formatInt p)⟩)
    (hid : request.msgID = msgIdMatchEnterReq) (hdata : request.data = envData)
    (hreq : decodeMatchEnterReq data = .ok req) :
    MatchSvr.Fifo.message request = some (.enter req.matchType ⟨p, req.elo, request.conn, c⟩) := by
  have hother : request.msgID ≠ msgIdSessionForceLeaveQueue := by rw [hid]; decide
  rw [MatchSvr.Fifo.message, if_neg hother, if_pos hid, hdata, henv]
  dsimp only
  rw [hreq]
  dsimp only
  rw [get_playerTag, Strconv.parseInt_formatInt]

theorem join_sender (henv : decodeEnvelope envData = .ok ⟨c, data, tag tagPlayerID (formatInt p)⟩)
    (hid : request.msgID = msgIdRoomJoinReq) (hdata : request.data = envData)
    (hm : decodeMatchId data = .ok m) :
    RoomSvr.decoded request = some (.join m ⟨formatInt p, request.conn, c⟩) := by
  rw [RoomSvr.decoded_join (hdata ▸ henv) hid, hm, get_playerTag]
  rfl

theorem leave_sender (henv : decodeEnvelope envData = .ok ⟨c, data, tag tagPlayerID (formatInt p)⟩)
    (hid : request.msgID = msgIdRoomLeaveReq) (hdata : request.data = envData)
    (hm : decodeMatchId data = .ok m) :
    Removes request m (formatInt p) := by
  refine .inl ?_
  rw [RoomSvr.decoded_leave (hdata ▸ henv) hid, hm, get_playerTag]
  rfl

end Decoded

/-- In every state of every run of a gateway, for any bytes its client sends. -/
theorem sender_authentic (h : Reached s) (hc : s.conns.load c = some conn) (ha : conn.auth = some p)
    (msg : Message)
    (hf : forward gw reg intn now c conn msg.msgID msg.data = .sent backend msgID envData) :
    msgID = msg.msgID ∧ ActsFor p c msg.data envData := by
  obtain ⟨hid, hwrap⟩ := forward_sent hf
  rw [wrap_authenticated (identified_reached h) hc ha] at hwrap
  have henv := decodeEnvelope_tag c (Nat.lt_trans msg.isInt (by decide))
    (show (utf8 tagPlayerID).length < 100 by decide +kernel) p
  rw [Option.some.inj hwrap] at henv
  refine ⟨hid, ?_, ?_, ?_, ?_⟩
  · exact fun conns now conn push hpush => chat_sender henv hpush
  · exact fun st request req hmsg hdata hreq => enters_handle (enter_sender henv hmsg hdata hreq) st
  · exact fun rooms request m hmsg hdata hm =>
      joins_changed (RoomSvr.changed rooms request) (join_sender henv hmsg hdata hm)
  · exact fun rooms request m hmsg hdata hm =>
      leaves_changed (RoomSvr.changed rooms request) (leave_sender henv hmsg hdata hm)

-- One ChatSvr, dialed and connected.
def chatSvr1 : Conf.ServerNode := ⟨"cs-1", "0.0.0.0:8001"⟩

def chatReg : Registry where
  backends := (∅ : SyncMap String Pool).store Conf.svcChatSvr
    ⟨[⟨chatSvr1, (Run.run Pkg.step (dialing chatSvr1) [.connStart 0, .setServerID 0]).getD
      (dialing chatSvr1)⟩], .hash⟩
  identity := Conf.svcGateway

def chatGateway : GatewayServer := (handleHello (new Conf.shippedGateway) chatHello).1

def player7 : Reconnect.Conn where
  auth := some 7
  properties := (∅ : SyncMap String Property).store propPlayerID (.int64 7)

def hi : Message := ⟨msgIdChatReq, Wire.fields [(1, .len (utf8 "hi"))], by decide +kernel⟩

theorem player7_authentic :
    ∃ s envData, Reached s ∧ s.conns.load 1 = some player7 ∧
      forward chatGateway chatReg 0 0 1 player7 hi.msgID hi.data =
        .sent ⟨chatSvr1, 0, some "cs-1"⟩ msgIdChatReq envData ∧
      ActsFor 7 1 hi.data envData := by
  have hreached : Reached (connStart (init "gateway-1") 1 (some 7)) :=
    ⟨"gateway-1", [.conn (.connStart 1 (some 7))], by simp [Backed], rfl⟩
  have hsent : forward chatGateway chatReg 0 0 1 player7 hi.msgID hi.data =
      .sent ⟨chatSvr1, 0, some "cs-1"⟩ msgIdChatReq
        (marshalEnvelope 1 hi.data [(tagPlayerID, formatInt 7)]) := by decide +kernel
  exact ⟨_, _, hreached, rfl, hsent, (sender_authentic hreached rfl rfl hi hsent).2⟩

end Cardwar.System.Identity
