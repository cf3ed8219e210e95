import Cardwar.Lib.Strconv
import Cardwar.Pkg.Server

/-!
# RoomSvr's router

Rooms are lists of players under their match id. A player joins a room once,
leaves it on request or is forced out when their session expired, and gets a new
connection when they reconnected. Every handler works on its room as one step.
-/

namespace Cardwar.RoomSvr

open Protocol Codec Pkg Conf

structure RoomPlayer where
  playerID : String
  conn : UInt64
  senderID : UInt64
  deriving DecidableEq

abbrev Rooms := SyncMap String (List RoomPlayer)

def sendJoinResp (conn senderID : UInt64) (matchID : String) (success : Bool) (errMsg : String) :
    Outgoing :=
  ⟨.conn conn, msgIdRoomJoinResp, .envelope senderID (.roomJoinResp success matchID errMsg) ∅⟩

def notifyMatchSvr (env : Env) (matchID : String) : List Outgoing :=
  match env.reg.routeTo env.intn svcMatchSvr matchID with
  | none => []
  | some conn =>
    [⟨.backend conn, msgIdRoomDestroyedPush, .envelope 0 (.roomDestroyedPush matchID) ∅⟩]

def broadcastRoomEvent (matchId : String) (members : List RoomPlayer) (playerID event : String)
    (count : Nat) : List Outgoing :=
  members.map fun p =>
    ⟨.conn p.conn, msgIdRoomEventPush,
      .envelope p.senderID (.roomEventPush matchId playerID event count) ∅⟩

def handleJoin (rooms : Rooms) (env : Envelope) (conn : UInt64) : Rooms × List Outgoing :=
  match decodeMatchId env.data with
  | .error matchId => (rooms, [sendJoinResp conn env.connId matchId false "invalid request"])
  | .ok matchId =>
    let playerID := env.connTags.get tagPlayerID
    let (players, rooms) := rooms.loadOrStore matchId []
    if players.any (·.playerID = playerID) then
      (rooms, [sendJoinResp conn env.connId matchId false "already in room"])
    else
      let joined := players ++ [⟨playerID, conn, env.connId⟩]
      (rooms.store matchId joined, sendJoinResp conn env.connId matchId true "" ::
        -- `players` are the members before the join.
        if 1 < joined.length then broadcastRoomEvent matchId players playerID "joined" joined.length
        else [])

/-- The part `handleLeave` and `handleForceLeave` have in common: the first entry
of the player is removed, and an empty room with it. -/
def removePlayer (env : Env) (rooms : Rooms) (conn : UInt64) (matchID playerID : String) :
    Rooms × List Outgoing :=
  match rooms.load matchID with
  | none => (rooms, [])
  | some players => match players.find? (·.playerID = playerID) with
    | none => (rooms, [])
    | some leftPlayer =>
      let players := players.eraseP (·.playerID = playerID)
      let resp :=
        ⟨.conn conn, msgIdRoomLeaveResp, .envelope leftPlayer.senderID (.roomLeaveResp true) ∅⟩
      if players = [] then (rooms.delete matchID, notifyMatchSvr env matchID ++ [resp])
      else (rooms.store matchID players,
        broadcastRoomEvent matchID players playerID "left" players.length ++ [resp])

def handleLeave (rooms : Rooms) (env : Envelope) (request : Request) : Rooms × List Outgoing :=
  match decodeMatchId env.data with
  | .error _ => (rooms, [])
  | .ok matchId =>
    removePlayer request.env rooms request.conn matchId (env.connTags.get tagPlayerID)

def handleReconnected (rooms : Rooms) (request : Request) : Rooms × List Outgoing :=
  match decodeSessionData request.data with
  | .error _ => (rooms, [])
  | .ok data =>
    let matchID := data.connTags.get tagMatchID
    let playerID := data.connTags.get tagPlayerID
    let senderID := Strconv.parseUint (data.connTags.get tagSenderID)
    match rooms.load matchID with
    | none => (rooms, [])
    | some players => match players.findIdx? (·.playerID = playerID) with
      | none => (rooms, [])
      | some i =>
        (rooms.store matchID
          (players.modify i fun p => { p with conn := request.conn, senderID }), [])

def handleForceLeave (rooms : Rooms) (request : Request) : Rooms × List Outgoing :=
  match decodeSessionData request.data with
  | .error _ => (rooms, [])
  | .ok data => removePlayer request.env rooms request.conn (data.connTags.get tagMatchID)
      (Strconv.formatInt data.playerId)

/-- `RoomRouter.Handle`. The message is decoded as an Envelope whatever it is. -/
def handle (rooms : Rooms) (request : Request) : Rooms × List Outgoing :=
  match decodeEnvelope request.data with
  | .error _ => (rooms, [])
  | .ok env =>
    if request.msgID = msgIdRoomJoinReq then handleJoin rooms env request.conn
    else if request.msgID = msgIdRoomLeaveReq then handleLeave rooms env request
    else if request.msgID = msgIdSessionReconnected then handleReconnected rooms request
    else if request.msgID = msgIdSessionForceLeave then handleForceLeave rooms request
    else (rooms, [])

def roomHello : ServiceHello where
  service := svcRoomSvr
  msgIds := [msgIdRoomJoinReq, msgIdRoomLeaveReq]
  sendMsgIds := [msgIdRoomJoinResp, msgIdRoomLeaveResp, msgIdRoomEventPush]

def server : Server Rooms :=
  ((newServer roomHello).addRouter msgIdRoomJoinReq (appRouter handle)).addRouter
    msgIdRoomLeaveReq (appRouter handle)

def serverWith (extra : List UInt32) : Server Rooms := server.addRouters extra (appRouter handle)

def Distinct (rooms : Rooms) : Prop :=
  ∀ m players, rooms.load m = some players → (players.map (·.playerID)).Nodup

theorem distinct_store (h : Distinct rooms) (hp : (players.map (·.playerID)).Nodup) :
    Distinct (rooms.store m players) := by
  intro n qs hn
  rw [SyncMap.load_store] at hn
  split at hn
  · exact Option.some.inj hn ▸ hp
  · exact h n qs hn

theorem distinct_delete (h : Distinct rooms) (m : String) : Distinct (rooms.delete m) := by
  intro n qs hn
  obtain ⟨-, hn⟩ := SyncMap.of_load_delete hn
  exact h n qs hn

theorem distinct_loadOrStore (h : Distinct rooms) (m : String) :
    Distinct (rooms.loadOrStore m []).2 ∧ ((rooms.loadOrStore m []).1.map (·.playerID)).Nodup := by
  unfold SyncMap.loadOrStore
  split
  next players hp => exact ⟨h, h m players hp⟩
  next => exact ⟨distinct_store h List.nodup_nil, List.nodup_nil⟩

theorem distinct_handleJoin (h : Distinct rooms) (env : Envelope) (conn : UInt64) :
    Distinct (handleJoin rooms env conn).1 := by
  unfold handleJoin
  split
  next => exact h
  next m _ =>
    obtain ⟨hrooms, hplayers⟩ := distinct_loadOrStore h m
    dsimp only
    split
    next => exact hrooms
    next hany =>
      refine distinct_store hrooms ?_
      rw [List.map_append, List.map_singleton]
      refine List.Nodup.append hplayers (List.nodup_singleton _) ?_
      intro id hid hnew
      obtain ⟨x, hx, rfl⟩ := List.mem_map.mp hid
      have heq : x.playerID = env.connTags.get tagPlayerID := List.mem_singleton.mp hnew
      exact hany (List.any_eq_true.mpr ⟨x, hx, by simpa using heq⟩)

theorem distinct_removePlayer (h : Distinct rooms) (env : Env) (conn : UInt64)
    (m playerID : String) :
    Distinct (removePlayer env rooms conn m playerID).1 := by
  unfold removePlayer
  split
  next => exact h
  next players hp =>
    split
    next => exact h
    next =>
      dsimp only
      split
      · exact distinct_delete h m
      · exact distinct_store h ((h m players hp).sublist (List.eraseP_sublist.map _))

theorem distinct_handleLeave (h : Distinct rooms) (env : Envelope) (request : Request) :
    Distinct (handleLeave rooms env request).1 := by
  unfold handleLeave
  split
  next => exact h
  next => exact distinct_removePlayer h _ _ _ _

theorem modify_playerID (players : List RoomPlayer) (i : Nat) (conn senderID : UInt64) :
    (players.modify i fun p => { p with conn, senderID }).map (·.playerID) =
      players.map (·.playerID) := by
  induction players generalizing i with
  | nil => cases i <;> rfl
  | cons p players ih =>
    cases i with
    | zero => rfl
    | succ i => exact congrArg (p.playerID :: ·) (ih i)

theorem distinct_handleReconnected (h : Distinct rooms) (request : Request) :
    Distinct (handleReconnected rooms request).1 := by
  unfold handleReconnected
  split
  next => exact h
  next =>
    dsimp only
    split
    next => exact h
    next players hp =>
      split
      next => exact h
      next => exact distinct_store h (modify_playerID players _ _ _ ▸ h _ players hp)

theorem distinct_handle (h : Distinct rooms) (request : Request) :
    Distinct (handle rooms request).1 := by
  unfold handle
  split
  next => exact h
  next env _ =>
    split
    · exact distinct_handleJoin h env _
    split
    · exact distinct_handleLeave h env request
    split
    · exact distinct_handleReconnected h request
    split
    · unfold handleForceLeave
      split
      next => exact h
      next => exact distinct_removePlayer h _ _ _ _
    · exact h

def Reached (extra : List UInt32) (st : Running Rooms) : Prop :=
  ∃ requests, st = (serverWith extra).after ⟨∅, ∅⟩ requests

theorem distinct_reached (h : Reached extra st) : Distinct st.app := by
  obtain ⟨requests, rfl⟩ := h
  refine Server.after_keeps (fun r hr st request h => ?_) (by simp [Distinct]) requests
  simp only [serverWith, Server.routers_addRouters, server, newServer, Server.addRouter,
    List.mem_append, List.mem_cons, List.mem_map, List.not_mem_nil, or_false] at hr
  rcases hr with (((rfl | rfl) | rfl) | rfl) | ⟨msgID, _, rfl⟩
  · exact h
  · exact h
  · exact distinct_handle h request
  · exact distinct_handle h request
  · exact distinct_handle h request

def InRoom (rooms : Rooms) (m playerID : String) : Prop :=
  ∃ players, rooms.load m = some players ∧ ∃ p ∈ players, p.playerID = playerID

/-- The player's entry has this connection and sender id. -/
def Holds (rooms : Rooms) (m playerID : String) (conn senderID : UInt64) : Prop :=
  ∃ players, rooms.load m = some players ∧ ⟨playerID, conn, senderID⟩ ∈ players

theorem playerID_ne_of_mem_eraseP {players : List RoomPlayer} (h : (players.map (·.playerID)).Nodup)
    (hx : x ∈ players.eraseP (·.playerID = playerID)) : x.playerID ≠ playerID := by
  induction players with
  | nil => cases hx
  | cons p players ih =>
    rw [List.map_cons, List.nodup_cons] at h
    by_cases hp : p.playerID = playerID
    · rw [List.eraseP_cons_of_pos (by simpa using hp)] at hx
      intro heq
      exact h.1 (List.mem_map.mpr ⟨x, hx, heq.trans hp.symm⟩)
    · rw [List.eraseP_cons_of_neg (by simpa using hp)] at hx
      rcases List.mem_cons.mp hx with rfl | hx
      · exact hp
      · exact ih h.2 hx

theorem not_inRoom_removePlayer (h : Distinct rooms) (env : Env) (conn : UInt64)
    (m playerID : String) :
    ¬ InRoom (removePlayer env rooms conn m playerID).1 m playerID := by
  rintro ⟨qs, hqs, x, hx, hid⟩
  unfold removePlayer at hqs
  split at hqs
  next hn => rw [hn] at hqs; cases hqs
  next players hp =>
    split at hqs
    next hfind =>
      obtain rfl := Option.some.inj (hp.symm.trans hqs)
      exact List.find?_eq_none.mp hfind x hx (by simpa using hid)
    next =>
      dsimp only at hqs
      split at hqs
      · rw [SyncMap.load_delete_self] at hqs; cases hqs
      · rw [SyncMap.load_store_self] at hqs
        obtain rfl := Option.some.inj hqs
        exact playerID_ne_of_mem_eraseP (h m players hp) hx hid

def forceLeave (player : Int64) (m : String) : SessionData :=
  { playerId := player, connTags := tag tagMatchID m }

def reconnected (player : Int64) (m : String) (senderID : UInt64) : SessionData :=
  { playerId := player
    connTags := ((tag tagPlayerID (Strconv.formatInt player)).store tagMatchID m).store tagSenderID
      (Strconv.formatUint senderID) }

theorem handle_forceLeave (h : Distinct rooms) (hid : request.msgID = msgIdSessionForceLeave)
    (hb : Marshals (forceLeave player m) request.data) :
    ¬ InRoom (handle rooms request).1 m (Strconv.formatInt player) := by
  have hm : (forceLeave player m).connTags.get tagMatchID = m := by
    simp [forceLeave, tag, Tags.get]
  have heq : (handle rooms request).1 = (removePlayer request.env rooms request.conn m
      (Strconv.formatInt player)).1 := by
    simp only [handle, decodeEnvelope_session hb, hid, handleForceLeave,
      decodeSessionData_marshal hb, hm]
    rfl
  rw [heq]
  exact not_inRoom_removePlayer h _ _ _ _

theorem holds_modify {players : List RoomPlayer}
    (hi : players.findIdx? (·.playerID = playerID) = some i) :
    ⟨playerID, conn, senderID⟩ ∈ players.modify i fun p => { p with conn, senderID } := by
  obtain ⟨hlt, hid, -⟩ := List.findIdx?_eq_some_iff_getElem.mp hi
  have hlt' : i < (players.modify i fun p => { p with conn, senderID }).length := by simpa using hlt
  refine List.mem_iff_getElem.mpr ⟨i, hlt', ?_⟩
  rw [List.getElem_modify, if_pos rfl]
  simpa using hid

theorem handle_reconnected (hin : InRoom rooms m (Strconv.formatInt player))
    (hid : request.msgID = msgIdSessionReconnected)
    (hb : Marshals (reconnected player m senderID) request.data) :
    Holds (handle rooms request).1 m (Strconv.formatInt player) request.conn senderID := by
  obtain ⟨players, hp, x, hx, hxid⟩ := hin
  have hm : (reconnected player m senderID).connTags.get tagMatchID = m := by
    simp [reconnected, Tags.get, tagMatchID, tagSenderID]
  have hplayer :
      (reconnected player m senderID).connTags.get tagPlayerID = Strconv.formatInt player := by
    simp [reconnected, Tags.get, tag, tagMatchID, tagSenderID, tagPlayerID]
  have hsender :
      (reconnected player m senderID).connTags.get tagSenderID = Strconv.formatUint senderID := by
    simp [reconnected, Tags.get]
  cases hi : players.findIdx? (·.playerID = Strconv.formatInt player) with
  | none => exact absurd hxid (by simpa using List.findIdx?_eq_none_iff.mp hi x hx)
  | some i =>
    refine ⟨_, ?_, holds_modify hi⟩
    simp only [handle, decodeEnvelope_session hb, hid, handleReconnected,
      decodeSessionData_marshal hb, hm, hplayer, hsender, hp, hi, Strconv.parseUint_formatUint]
    exact SyncMap.load_store_self _ _ _

end Cardwar.RoomSvr
