import Cardwar.RoomSvr.Concurrent

/-!
# What a message does to the rooms

RoomRouter handles one message at a time. `Changed` says what each message does
to the rooms and what it sends; the rest follows from it: a stored room has
members, each of them once, and a room is gone exactly when its last member is
(`rooms_represented`).
-/

namespace Cardwar.RoomSvr

open Protocol Codec Pkg Conf
open Concurrent (members ids any_player)

/-- A message that decodes, as its handler reads it. -/
inductive Message
  | join (matchID : String) (player : RoomPlayer)
  | leave (matchID playerID : String)
  | reconnected (matchID playerID : String) (conn senderID : UInt64)
  | forceLeave (matchID playerID : String)
  deriving DecidableEq

def decoded (request : Request) : Option Message :=
  match decodeEnvelope request.data with
  | .error _ => none
  | .ok env =>
    if request.msgID = msgIdRoomJoinReq then
      (decodeMatchId env.data).toOption.map fun matchId =>
        .join matchId ⟨env.connTags.get tagPlayerID, request.conn, env.connId⟩
    else if request.msgID = msgIdRoomLeaveReq then
      (decodeMatchId env.data).toOption.map fun matchId =>
        .leave matchId (env.connTags.get tagPlayerID)
    else if request.msgID = msgIdSessionReconnected then
      (decodeSessionData request.data).toOption.map fun data =>
        .reconnected (data.connTags.get tagMatchID) (data.connTags.get tagPlayerID) request.conn
          (Strconv.parseUint (data.connTags.get tagSenderID))
    else if request.msgID = msgIdSessionForceLeave then
      (decodeSessionData request.data).toOption.map fun data =>
        .forceLeave (data.connTags.get tagMatchID) (Strconv.formatInt data.playerId)
    else none

/-- A player joins a room they are not in; the other messages are about one who is. -/
def Message.Accepted (rooms : Rooms) : Message → Prop
  | .join m player => player.playerID ∉ ids rooms m
  | .leave m playerID | .reconnected m playerID _ _ | .forceLeave m playerID =>
    playerID ∈ ids rooms m

/-- Both messages that take a player out of a room. -/
def Removes (request : Request) (m playerID : String) : Prop :=
  decoded request = some (.leave m playerID) ∨ decoded request = some (.forceLeave m playerID)

def leaveResp (conn senderID : UInt64) : Outgoing :=
  ⟨.conn conn, msgIdRoomLeaveResp, .envelope senderID (.roomLeaveResp true) ∅⟩

inductive Changed (rooms : Rooms) (request : Request) : Rooms → List Outgoing → Prop
  | refused (hmsg : ∀ msg ∈ decoded request, ¬ msg.Accepted rooms)
      (ho : ∀ out ∈ outs, ∃ conn senderID matchID error, out =
        sendJoinResp conn senderID matchID false error) :
      Changed rooms request rooms outs
  | joined (hmsg : decoded request = some (.join m player)) (hnew : player.playerID ∉ ids rooms m) :
      Changed rooms request (rooms.store m (members rooms m ++ [player]))
        (sendJoinResp player.conn player.senderID m true "" ::
          broadcastRoomEvent m (members rooms m) player.playerID "joined"
            ((members rooms m).length + 1))
  | left (hmsg : Removes request m playerID) (hload : rooms.load m = some players)
      (hin : playerID ∈ players.map (·.playerID))
      (hrest : players.eraseP (·.playerID = playerID) ≠ []) :
      Changed rooms request (rooms.store m (players.eraseP (·.playerID = playerID)))
        (broadcastRoomEvent m (players.eraseP (·.playerID = playerID)) playerID "left"
          (players.eraseP (·.playerID = playerID)).length ++ [leaveResp request.conn senderID])
  | emptied (hmsg : Removes request m playerID) (hload : rooms.load m = some players)
      (hin : playerID ∈ players.map (·.playerID))
      (hrest : players.eraseP (·.playerID = playerID) = []) :
      Changed rooms request (rooms.delete m)
      (notifyMatchSvr request.env m ++ [leaveResp request.conn senderID])
  | readdressed (hmsg : decoded request = some (.reconnected m playerID conn senderID))
      (hload : rooms.load m = some players)
      (hi : players.findIdx? (·.playerID = playerID) = some i) :
      Changed rooms request (rooms.store m (players.modify i fun p => { p with conn, senderID })) []

section Decoded

variable {request : Request} {env : Envelope} (henv : decodeEnvelope request.data = .ok env)

include henv

theorem decoded_join (hid : request.msgID = msgIdRoomJoinReq) :
    decoded request = (decodeMatchId env.data).toOption.map fun matchId =>
      .join matchId ⟨env.connTags.get tagPlayerID, request.conn, env.connId⟩ := by
  rw [decoded, henv, hid]
  rfl

theorem decoded_leave (hid : request.msgID = msgIdRoomLeaveReq) :
    decoded request = (decodeMatchId env.data).toOption.map fun matchId =>
      .leave matchId (env.connTags.get tagPlayerID) := by
  rw [decoded, henv, hid]
  rfl

theorem decoded_reconnected (hid : request.msgID = msgIdSessionReconnected) :
    decoded request = (decodeSessionData request.data).toOption.map fun data =>
      .reconnected (data.connTags.get tagMatchID) (data.connTags.get tagPlayerID) request.conn
        (Strconv.parseUint (data.connTags.get tagSenderID)) := by
  rw [decoded, henv, hid]
  rfl

theorem decoded_forceLeave (hid : request.msgID = msgIdSessionForceLeave) :
    decoded request = (decodeSessionData request.data).toOption.map fun data =>
      .forceLeave (data.connTags.get tagMatchID) (Strconv.formatInt data.playerId) := by
  rw [decoded, henv, hid]
  rfl

end Decoded

theorem changed_nothing (h : decoded request = none) (rooms : Rooms) :
    Changed rooms request rooms [] :=
  .refused (by simp [h]) (by simp)

theorem changed_join (hid : request.msgID = msgIdRoomJoinReq)
    (henv : decodeEnvelope request.data = .ok env) (rooms : Rooms) :
    Changed rooms request (handleJoin rooms env request.conn).1
      (handleJoin rooms env request.conn).2 := by
  unfold handleJoin
  split
  next matchId hm =>
    refine .refused (by simp [decoded_join henv hid, hm, Except.toOption]) ?_
    intro out hout
    obtain rfl := List.mem_singleton.mp hout
    exact ⟨_, _, _, _, rfl⟩
  next m hm =>
    have hdec : decoded request =
        some (.join m ⟨env.connTags.get tagPlayerID, request.conn, env.connId⟩) := by
      rw [decoded_join henv hid, hm]
      rfl
    simp only [SyncMap.loadOrStore_fst, SyncMap.store_loadOrStore]
    split
    next hin =>
      have hmem : env.connTags.get tagPlayerID ∈ ids rooms m := (any_player _ _).mp hin
      -- Someone is in the room, so it was there already.
      have hsame : (rooms.loadOrStore m []).2 = rooms := by
        unfold SyncMap.loadOrStore
        split
        next => rfl
        next hnone => simp [ids, members, hnone] at hmem
      rw [hsame]
      refine .refused (by simpa [hdec, Message.Accepted] using hmem) ?_
      intro out hout
      obtain rfl := List.mem_singleton.mp hout
      exact ⟨_, _, _, _, rfl⟩
    next hnot =>
      have hevents : ∀ playerID n, (if 1 < ((rooms.load m).getD [] ++ [n]).length then
          broadcastRoomEvent m ((rooms.load m).getD []) playerID "joined"
            ((rooms.load m).getD [] ++ [n]).length
          else []) = broadcastRoomEvent m (members rooms m) playerID "joined"
            ((members rooms m).length + 1) := by
        intro playerID n
        rw [List.length_append, List.length_singleton]
        split
        next => rfl
        next hlen =>
          have hnil : members rooms m = [] := List.eq_nil_of_length_eq_zero (by rw [members]; omega)
          rw [hnil]
          rfl
      rw [hevents]
      exact .joined hdec fun hmem => hnot ((any_player _ _).mpr hmem)

theorem changed_remove (hmsg : Removes request m playerID) (rooms : Rooms) :
    Changed rooms request (removePlayer request.env rooms request.conn m playerID).1
      (removePlayer request.env rooms request.conn m playerID).2 := by
  have hrefused (hnot : playerID ∉ ids rooms m) : Changed rooms request rooms [] := by
    refine .refused (fun msg hdec => ?_) (by simp)
    rcases hmsg with h | h <;> cases h.symm.trans hdec <;> exact hnot
  unfold removePlayer
  split
  next hnone => exact hrefused (by simp [ids, members, hnone])
  next players hload =>
    split
    next hfind =>
      refine hrefused ?_
      simpa [ids, members, hload, List.find?_eq_none] using hfind
    next leftPlayer hfind =>
      have hin : playerID ∈ players.map (·.playerID) := by
        refine List.mem_map.mpr ⟨leftPlayer, List.mem_of_find?_eq_some hfind, ?_⟩
        simpa using List.find?_some hfind
      dsimp only
      split
      next hempty => exact .emptied hmsg hload hin hempty
      next hrest => exact .left hmsg hload hin hrest

theorem changed_reconnected (hid : request.msgID = msgIdSessionReconnected)
    (henv : decodeEnvelope request.data = .ok env) (rooms : Rooms) :
    Changed rooms request (handleReconnected rooms request).1
      (handleReconnected rooms request).2 := by
  unfold handleReconnected
  split
  next hdata => exact changed_nothing (by rw [decoded_reconnected henv hid, hdata]; rfl) rooms
  next data hdata =>
    have hdec : decoded request = some (.reconnected (data.connTags.get tagMatchID)
        (data.connTags.get tagPlayerID) request.conn
          (Strconv.parseUint (data.connTags.get tagSenderID))) := by
      rw [decoded_reconnected henv hid, hdata]
      rfl
    dsimp only
    split
    next hnone =>
      refine .refused (fun msg hmsg => ?_) (by simp)
      cases hdec.symm.trans hmsg
      simp [Message.Accepted, ids, members, hnone]
    next players hload =>
      split
      next hnone =>
        refine .refused (fun msg hmsg => ?_) (by simp)
        cases hdec.symm.trans hmsg
        simpa [Message.Accepted, ids, members, hload, List.findIdx?_eq_none_iff] using hnone
      next i hi => exact .readdressed hdec hload hi

theorem changed (rooms : Rooms) (request : Request) :
    Changed rooms request (handle rooms request).1 (handle rooms request).2 := by
  unfold handle
  split
  next henv => exact changed_nothing (by simp [decoded, henv]) rooms
  next env henv =>
    split
    next hid => exact changed_join hid henv rooms
    next hjoin =>
      split
      next hid =>
        unfold handleLeave
        split
        next hm => exact changed_nothing (by rw [decoded_leave henv hid, hm]; rfl) rooms
        next m hm => exact changed_remove (.inl (by rw [decoded_leave henv hid, hm]; rfl)) rooms
      next hleave =>
        split
        next hid => exact changed_reconnected hid henv rooms
        next hrec =>
          split
          next hid =>
            unfold handleForceLeave
            split
            next hd => exact changed_nothing (by rw [decoded_forceLeave henv hid, hd]; rfl) rooms
            next data hd =>
              exact changed_remove (.inr (by rw [decoded_forceLeave henv hid, hd]; rfl)) rooms
          next hforce =>
            exact changed_nothing (by simp [decoded, henv, hjoin, hleave, hrec, hforce]) rooms

theorem omits_changed (h : Changed rooms request rooms' outs) (hout : out ∈ outs) (key : String) :
    out.Omits key := by
  have hbroadcast {m : String} {players : List RoomPlayer} {playerID event : String} {count : Nat}
      (hmem : out ∈ broadcastRoomEvent m players playerID event count) : out.Omits key := by
    obtain ⟨p, -, rfl⟩ := List.mem_map.mp hmem
    rintro _ _ _ ⟨⟩
    exact SyncMap.load_empty key
  have hleave {conn senderID : UInt64} (hmem : out ∈ [leaveResp conn senderID]) :
      out.Omits key := by
    obtain rfl := List.mem_singleton.mp hmem
    rintro _ _ _ ⟨⟩
    exact SyncMap.load_empty key
  cases h with
  | refused hmsg ho =>
    obtain ⟨conn, senderID, m, error, rfl⟩ := ho out hout
    rintro _ _ _ ⟨⟩
    exact SyncMap.load_empty key
  | joined hmsg hnew =>
    rcases List.mem_cons.mp hout with rfl | hout
    · rintro _ _ _ ⟨⟩
      exact SyncMap.load_empty key
    · exact hbroadcast hout
  | left hmsg hload hin hrest => exact (List.mem_append.mp hout).elim hbroadcast hleave
  | emptied hmsg hload hin hrest =>
    refine (List.mem_append.mp hout).elim (fun hnotice => ?_) hleave
    unfold notifyMatchSvr at hnotice
    split at hnotice
    next => cases hnotice
    next =>
      obtain rfl := List.mem_singleton.mp hnotice
      rintro _ _ _ ⟨⟩
      exact SyncMap.load_empty key
  | readdressed hmsg hload hi => cases hout

theorem omits_server (h : out ∈ (server.dispatch st request).2) (key : String) : out.Omits key := by
  refine Server.dispatch_sends (fun r hr st request out hout => ?_) h
  simp only [server, Server.addRouter, List.mem_append, List.mem_singleton] at hr
  rcases hr with (hr | rfl) | rfl
  · exact omits_newServer key _ r hr st request out hout
  · exact omits_changed (changed st.app request) hout key
  · exact omits_changed (changed st.app request) hout key

theorem eraseP_eq_filter {players : List RoomPlayer} (h : (players.map (·.playerID)).Nodup)
    (playerID : String) :
    players.eraseP (·.playerID = playerID) = players.filter (·.playerID ≠ playerID) := by
  induction players with
  | nil => rfl
  | cons p players ih =>
    obtain ⟨hnot, hnodup⟩ := List.nodup_cons.mp h
    by_cases hp : p.playerID = playerID
    · subst hp
      rw [List.eraseP_cons_of_pos (by simp), List.filter_cons_of_neg (by simp),
        List.filter_eq_self.mpr]
      intro q hq
      have hne : q.playerID ≠ p.playerID := fun heq => hnot (List.mem_map.mpr ⟨q, hq, heq⟩)
      simpa using hne
    · rw [List.eraseP_cons_of_neg (by simpa using hp), List.filter_cons_of_pos (by simpa using hp),
        ih hnodup]

def readdress (playerID : String) (conn senderID : UInt64) (p : RoomPlayer) : RoomPlayer :=
  if p.playerID = playerID then { p with conn, senderID } else p

theorem modify_eq_map {players : List RoomPlayer} (h : (players.map (·.playerID)).Nodup)
    (hi : players.findIdx? (·.playerID = playerID) = some i) :
    players.modify i (fun p => { p with conn, senderID }) = players.map
      (readdress playerID conn senderID) := by
  induction players generalizing i with
  | nil => simp at hi
  | cons p players ih =>
    obtain ⟨hnot, hnodup⟩ := List.nodup_cons.mp h
    rw [List.findIdx?_cons] at hi
    by_cases hp : p.playerID = playerID
    · subst hp
      obtain rfl : 0 = i := by simpa using hi
      have hrest : players.map (readdress p.playerID conn senderID) = players := by
        refine (List.map_congr_left fun q hq => ?_).trans (List.map_id players)
        exact if_neg fun heq => hnot (List.mem_map.mpr ⟨q, hq, heq⟩)
      rw [List.modify_zero_cons, List.map_cons, hrest, readdress, if_pos rfl]
    · simp only [hp, decide_false, Bool.false_eq_true, ↓reduceIte, Option.map_eq_some_iff] at hi
      obtain ⟨j, hj, rfl⟩ := hi
      rw [List.modify_succ_cons, List.map_cons, ih hnodup hj, readdress, if_neg hp]

/-- A stored room has members, each of them once. -/
structure Represented (rooms : Rooms) : Prop where
  occupied : ∀ m players, rooms.load m = some players → players ≠ []
  distinct : Distinct rooms

theorem occupied_store {rooms : Rooms} (h : ∀ m players, rooms.load m = some players → players ≠ [])
    (hne : new ≠ []) :
    ∀ n players, (rooms.store m new).load n = some players → players ≠ [] := by
  intro n players hn
  rw [SyncMap.load_store] at hn
  split at hn
  · exact Option.some.inj hn ▸ hne
  · exact h n players hn

theorem represented_changed (h : Represented rooms) (hc : Changed rooms request rooms' outs)
    (hd : Distinct rooms') : Represented rooms' := by
  refine ⟨?_, hd⟩
  cases hc with
  | refused => exact h.occupied
  | joined => exact occupied_store h.occupied (by simp)
  | left hmsg hload hin hrest => exact occupied_store h.occupied hrest
  | @emptied m =>
    intro n players hn
    obtain ⟨-, hn⟩ := SyncMap.of_load_delete hn
    exact h.occupied n players hn
  | readdressed hmsg hload hi =>
    exact occupied_store h.occupied (by simpa using h.occupied _ _ hload)

theorem represented_handle (h : Represented rooms) (request : Request) :
    Represented (handle rooms request).1 :=
  represented_changed h (changed rooms request) (distinct_handle h.distinct request)

def after (requests : List Request) : Rooms :=
  requests.foldl (fun rooms request => (handle rooms request).1) ∅

theorem represented_after (requests : List Request) : Represented (after requests) := by
  have h0 : Represented (∅ : Rooms) := ⟨by simp, by simp [Distinct]⟩
  exact List.foldlRecOn requests _ h0 fun _ h request _ => represented_handle h request

-- ---------------------------------------------------------------------------
-- One message
-- ---------------------------------------------------------------------------

/-- The room was there and is not any more. -/
def Gone (rooms rooms' : Rooms) (m : String) : Prop := (rooms.load m).isSome ∧ rooms'.load m = none

instance (rooms rooms' : Rooms) (m : String) : Decidable (Gone rooms rooms' m) :=
  inferInstanceAs (Decidable (_ ∧ _))

def isDestroyedPush (m : String) (out : Outgoing) : Bool :=
  out.msgID = msgIdRoomDestroyedPush ∧ out.content = .envelope 0 (.roomDestroyedPush m) ∅

/-- What a message does to the rooms, and which rooms MatchSvr is told about. -/
structure Handles (rooms : Rooms) (request : Request) (rooms' : Rooms) (outs : List Outgoing) :
    Prop where
  refused : (∀ msg ∈ decoded request, ¬ msg.Accepted rooms) → rooms' = rooms
  joined : ∀ m player, decoded request = some (.join m player) → player.playerID ∉ ids rooms m →
    rooms' = rooms.store m (members rooms m ++ [player])
  left : ∀ m playerID, Removes request m playerID →
    members rooms' m = (members rooms m).filter (·.playerID ≠ playerID) ∧
      ∀ n ≠ m, rooms'.load n = rooms.load n
  readdressed :
    ∀ m playerID conn senderID, decoded request = some (.reconnected m playerID conn senderID) →
    members rooms' m = (members rooms m).map (readdress playerID conn senderID) ∧
      ∀ n ≠ m, rooms'.load n = rooms.load n
  destroyed : ∀ m, Gone rooms rooms' m ↔
    ∃ player, rooms.load m = some [player] ∧ Removes request m player.playerID
  noticed : ∀ m conn, request.env.reg.routeTo request.env.intn svcMatchSvr m = some conn →
    outs.filter (isDestroyedPush m) =
      if Gone rooms rooms' m then
        [⟨.backend conn, msgIdRoomDestroyedPush, .envelope 0 (.roomDestroyedPush m) ∅⟩]
      else []

theorem Removes.inj (h : Removes request m playerID) (h' : Removes request n other) :
    m = n ∧ playerID = other := by
  rcases h with h | h <;> rcases h' with h' | h' <;> simpa using h.symm.trans h'

theorem Removes.accepted (h : Removes request m playerID) (hin : playerID ∈ ids rooms m) :
    ∃ msg ∈ decoded request, msg.Accepted rooms := by
  rcases h with h | h
  · exact ⟨_, h, hin⟩
  · exact ⟨_, h, hin⟩

theorem not_removes_join (h : decoded request = some (.join m player)) :
    ¬ Removes request n playerID := by
  simp [Removes, h]

theorem not_removes_reconnected (h : decoded request = some (.reconnected m other conn senderID)) :
    ¬ Removes request n playerID := by
  simp [Removes, h]

theorem ids_of_load (h : rooms.load m = some players) : ids rooms m = players.map (·.playerID) := by
  rw [ids, members, h, Option.getD_some]

theorem not_gone_self (rooms : Rooms) (m : String) : ¬ Gone rooms rooms m := by
  rintro ⟨hsome, hnone⟩
  simp [hnone] at hsome

theorem not_gone_store (rooms : Rooms) (m : String) (players : List RoomPlayer) (n : String) :
    ¬ Gone rooms (rooms.store m players) n := by
  rintro ⟨hsome, hnone⟩
  rw [SyncMap.load_store] at hnone
  split at hnone
  · cases hnone
  · simp [hnone] at hsome

theorem load_store_others (rooms : Rooms) (m : String) (players : List RoomPlayer) :
    members (rooms.store m players) m = players ∧
    ∀ n ≠ m, (rooms.store m players).load n = rooms.load n :=
  ⟨by simp [members], fun _ hn => SyncMap.load_store_ne _ _ hn⟩

theorem handles_left (h : Represented rooms) (hc : Changed rooms request rooms' outs)
    (hmsg : Removes request m playerID) :
    members rooms' m = (members rooms m).filter (·.playerID ≠ playerID) ∧
      ∀ n ≠ m, rooms'.load n = rooms.load n := by
  cases hc with
  | refused hno =>
    refine ⟨(List.filter_eq_self.mpr fun p hp => ?_).symm, fun _ _ => rfl⟩
    have hne : p.playerID ≠ playerID := by
      rintro rfl
      obtain ⟨msg, hdec, hacc⟩ := hmsg.accepted (List.mem_map.mpr ⟨p, hp, rfl⟩)
      exact hno msg hdec hacc
    simpa using hne
  | joined hdec => exact absurd hmsg (not_removes_join hdec)
  | @left n other players senderID hmsg' hload hin hrest =>
    obtain ⟨rfl, rfl⟩ := hmsg.inj hmsg'
    obtain ⟨hself, hothers⟩ := load_store_others rooms m (players.eraseP (·.playerID = playerID))
    refine ⟨?_, hothers⟩
    rw [hself, eraseP_eq_filter (h.distinct m players hload), members, hload, Option.getD_some]
  | @emptied n other players senderID hmsg' hload hin hrest =>
    obtain ⟨rfl, rfl⟩ := hmsg.inj hmsg'
    refine ⟨?_, fun n hn => SyncMap.load_delete_ne _ hn⟩
    rw [eraseP_eq_filter (h.distinct m players hload)] at hrest
    rw [members, SyncMap.load_delete_self, members, hload, Option.getD_some, hrest]
    rfl
  | readdressed hdec => exact absurd hmsg (not_removes_reconnected hdec)

theorem handles_readdressed (h : Represented rooms) (hc : Changed rooms request rooms' outs)
    (hmsg : decoded request = some (.reconnected m playerID conn senderID)) :
    members rooms' m = (members rooms m).map (readdress playerID conn senderID) ∧
      ∀ n ≠ m, rooms'.load n = rooms.load n := by
  cases hc with
  | refused hno =>
    refine ⟨((List.map_congr_left fun p hp => ?_).trans (List.map_id _)).symm, fun _ _ => rfl⟩
    refine if_neg ?_
    rintro rfl
    exact hno _ hmsg (List.mem_map.mpr ⟨p, hp, rfl⟩)
  | joined hdec => cases hdec.symm.trans hmsg
  | left hmsg' => exact absurd hmsg' (not_removes_reconnected hmsg)
  | emptied hmsg' => exact absurd hmsg' (not_removes_reconnected hmsg)
  | @readdressed n other conn' senderID' players i hdec hload hi =>
    cases hdec.symm.trans hmsg
    obtain ⟨hself, hothers⟩ :=
      load_store_others rooms m (players.modify i fun p => { p with conn, senderID })
    refine ⟨?_, hothers⟩
    rw [hself, modify_eq_map (h.distinct m players hload) hi, members, hload, Option.getD_some]

theorem handles_destroyed (hc : Changed rooms request rooms' outs) (m : String) :
    Gone rooms rooms' m ↔ ∃ player, rooms.load m = some [player] ∧
      Removes request m player.playerID := by
  constructor
  · intro hgone
    cases hc with
    | refused => exact absurd hgone (not_gone_self rooms m)
    | joined => exact absurd hgone (not_gone_store _ _ _ _)
    | left => exact absurd hgone (not_gone_store _ _ _ _)
    | @emptied n playerID players senderID hmsg hload hin hrest =>
      have hm : m = n := by
        by_contra hne
        obtain ⟨hsome, hnone⟩ := hgone
        rw [SyncMap.load_delete_ne _ hne] at hnone
        simp [hnone] at hsome
      subst hm
      -- Nobody is left once one entry of the player is erased, so it was the only one.
      obtain ⟨p, hp, rfl⟩ := List.mem_map.mp hin
      have hlen := List.length_eraseP_of_mem hp (p := (·.playerID = p.playerID)) (by simp)
      rw [hrest, List.length_nil] at hlen
      have hpos : 0 < players.length := List.length_pos_of_mem hp
      obtain ⟨q, rfl⟩ := List.length_eq_one_iff.mp (show players.length = 1 by omega)
      exact ⟨q, hload, List.mem_singleton.mp hp ▸ hmsg⟩
    | readdressed => exact absurd hgone (not_gone_store _ _ _ _)
  · rintro ⟨player, hload, hmsg⟩
    have hin : player.playerID ∈ ids rooms m := by simp [ids_of_load hload]
    refine ⟨by simp [hload], ?_⟩
    cases hc with
    | refused hno =>
      obtain ⟨msg, hdec, hacc⟩ := hmsg.accepted hin
      exact absurd hacc (hno msg hdec)
    | joined hdec => exact absurd hmsg (not_removes_join hdec)
    | @left n playerID players senderID hmsg' hload' hin' hrest =>
      obtain ⟨rfl, rfl⟩ := hmsg.inj hmsg'
      obtain rfl := Option.some.inj (hload.symm.trans hload')
      simp at hrest
    | emptied hmsg' =>
      obtain ⟨rfl, -⟩ := hmsg.inj hmsg'
      exact SyncMap.load_delete_self _ _
    | readdressed hdec => exact absurd hmsg (not_removes_reconnected hdec)

theorem not_destroyedPush_broadcast (m n : String) (players : List RoomPlayer)
    (playerID event : String)
    (count : Nat) :
    (broadcastRoomEvent n players playerID event count).filter (isDestroyedPush m) = [] := by
  rw [List.filter_eq_nil_iff]
  intro out hout
  obtain ⟨p, -, rfl⟩ := List.mem_map.mp hout
  simp [isDestroyedPush]

theorem handles_noticed (hc : Changed rooms request rooms' outs)
    (hroute : request.env.reg.routeTo request.env.intn svcMatchSvr m = some conn) :
    outs.filter (isDestroyedPush m) =
      if Gone rooms rooms' m then
        [⟨.backend conn, msgIdRoomDestroyedPush, .envelope 0 (.roomDestroyedPush m) ∅⟩]
      else [] := by
  cases hc with
  | refused hno ho =>
    rw [if_neg (not_gone_self rooms m), List.filter_eq_nil_iff]
    intro out hout
    obtain ⟨conn, senderID, matchID, error, rfl⟩ := ho out hout
    simp [isDestroyedPush, sendJoinResp]
  | joined =>
    rw [if_neg (not_gone_store _ _ _ _),
      List.filter_cons_of_neg (by simp [isDestroyedPush, sendJoinResp])]
    exact not_destroyedPush_broadcast ..
  | left =>
    rw [if_neg (not_gone_store _ _ _ _), List.filter_append, not_destroyedPush_broadcast]
    simp [isDestroyedPush, leaveResp]
  | @emptied n playerID players senderID hmsg hload hin hrest =>
    have hresp : [leaveResp request.conn senderID].filter (isDestroyedPush m) = [] := by
      simp [isDestroyedPush, leaveResp]
    rw [List.filter_append, hresp, List.append_nil]
    by_cases hm : m = n
    · subst hm
      rw [if_pos ⟨by simp [hload], SyncMap.load_delete_self _ _⟩]
      simp [notifyMatchSvr, hroute, isDestroyedPush]
    · have hkept : ¬ Gone rooms (rooms.delete n) m := by
        rintro ⟨hsome, hnone⟩
        rw [SyncMap.load_delete_ne _ hm] at hnone
        simp [hnone] at hsome
      rw [if_neg hkept]
      unfold notifyMatchSvr
      split
      next => rfl
      next => simp [isDestroyedPush, Ne.symm hm]
  | readdressed => rw [if_neg (not_gone_store _ _ _ _), List.filter_nil]

theorem handles (h : Represented rooms) (hc : Changed rooms request rooms' outs) :
    Handles rooms request rooms' outs where
  refused := by
    intro hno
    cases hc with
    | refused => rfl
    | joined hdec hnew => exact absurd hnew (hno _ hdec)
    | left hmsg hload hin =>
      obtain ⟨msg, hdec, hacc⟩ := hmsg.accepted (ids_of_load hload ▸ hin)
      exact absurd hacc (hno msg hdec)
    | emptied hmsg hload hin =>
      obtain ⟨msg, hdec, hacc⟩ := hmsg.accepted (ids_of_load hload ▸ hin)
      exact absurd hacc (hno msg hdec)
    | readdressed hdec hload hi =>
      obtain ⟨hlt, hid, -⟩ := List.findIdx?_eq_some_iff_getElem.mp hi
      refine absurd ?_ (hno _ hdec)
      rw [Message.Accepted, ids_of_load hload]
      exact List.mem_map.mpr ⟨_, List.getElem_mem hlt, of_decide_eq_true hid⟩
  joined := by
    intro m player hmsg hnew
    cases hc with
    | refused hno => exact absurd hnew (hno _ hmsg)
    | joined hdec => cases hdec.symm.trans hmsg; rfl
    | left hmsg' => exact absurd hmsg' (not_removes_join hmsg)
    | emptied hmsg' => exact absurd hmsg' (not_removes_join hmsg)
    | readdressed hdec => cases hdec.symm.trans hmsg
  left := fun _ _ => handles_left h hc
  readdressed := fun _ _ _ _ => handles_readdressed h hc
  destroyed := handles_destroyed hc
  noticed := fun _ _ => handles_noticed hc

/-- In every state RoomRouter reaches from no rooms, every stored room has
members and each of them once, and the next message, whatever it is, does to
the rooms what `Handles` says. -/
theorem rooms_represented (requests : List Request) (request : Request) :
    Represented (after requests) ∧
      Handles (after requests) request (handle (after requests) request).1
        (handle (after requests) request).2 :=
  ⟨represented_after requests, handles (represented_after requests) (changed _ request)⟩

def fromGateway (conn connId : UInt64) (msgID : UInt32) (m playerID : String) : Request :=
  ⟨msgID, marshalEnvelope connId (marshalMatchId m) [(tagPlayerID, playerID)], conn,
    { reg := { identity := svcRoomSvr } }⟩

end Cardwar.RoomSvr
