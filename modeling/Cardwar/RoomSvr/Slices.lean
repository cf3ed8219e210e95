import Cardwar.Lib.GoSlice
import Cardwar.RoomSvr.Responses

/-!
# Rooms as slices

`rooms` maps a match id to a slice, and the handlers work on its array: joining
appends to it, leaving moves the players behind within it, reconnecting writes into
it, and the broadcasts read it member by member. The handlers run on several
workers without a lock. As long as no two handlers of the same room overlap, every
interleaving does what `RoomSvr.handle` does to lists with one request after the
other (`rooms_serialized`), however `append` picks the capacity of new arrays. When
they overlap, a member can be in the room twice (`overlap_doubles`).
-/

namespace Cardwar.RoomSvr.Slices

open Protocol Codec Goroutine GoSlice
open Pkg (Env Outgoing Request)
open Run (run Along)

instance inhabitedRoomPlayer : Inhabited RoomPlayer := ⟨⟨"", 0, 0⟩⟩

abbrev Code := Prog (Mem String RoomPlayer) Outgoing Unit

def broadcastRoomEvent (matchId : String) (members : Slice) (playerID event : String)
    (count : Nat) : Code :=
  sendEach members fun p =>
    ⟨.conn p.conn, msgIdRoomEventPush,
      .envelope p.senderID (.roomEventPush matchId playerID event count) ∅⟩

section

variable (grow : Nat → Nat → Nat)

def handleJoin (env : Envelope) (conn : UInt64) : Code :=
  match decodeMatchId env.data with
  | .error matchId => send (sendJoinResp conn env.connId matchId false "invalid request")
  | .ok matchId => do
    let playerID := env.connTags.get tagPlayerID
    let players ← loadOrStore matchId
    match ← findIdx players (·.playerID = playerID) with
    | some _ => send (sendJoinResp conn env.connId matchId false "already in room")
    | none =>
      let players ← append grow matchId players [⟨playerID, conn, env.connId⟩]
      store matchId players
      send (sendJoinResp conn env.connId matchId true "")
      if 1 < players.len then
        broadcastRoomEvent matchId (players.cut 0 (players.len - 1)) playerID "joined" players.len

def removePlayer (env : Env) (conn : UInt64) (matchID playerID : String) : Code := do
  match ← load matchID with
  | none => pure ()
  | some players =>
    match ← findIdx players (·.playerID = playerID) with
    | none => pure ()
    | some idx =>
      let leftPlayer ← index players idx
      let players ← removeAt grow matchID players idx
      if players.len = 0 then
        delete matchID
        sendAll (notifyMatchSvr env matchID)
      else
        store matchID players
        broadcastRoomEvent matchID players playerID "left" players.len
      send ⟨.conn conn, msgIdRoomLeaveResp, .envelope leftPlayer.senderID (.roomLeaveResp true) ∅⟩

def handleLeave (env : Envelope) (request : Request) : Code :=
  match decodeMatchId env.data with
  | .error _ => pure ()
  | .ok matchId => removePlayer grow request.env request.conn matchId (env.connTags.get tagPlayerID)

def handleReconnected (request : Request) : Code :=
  match decodeSessionData request.data with
  | .error _ => pure ()
  | .ok data => do
    let matchID := data.connTags.get tagMatchID
    let playerID := data.connTags.get tagPlayerID
    let senderID := Strconv.parseUint (data.connTags.get tagSenderID)
    match ← load matchID with
    | none => pure ()
    | some players =>
      match ← findIdx players (·.playerID = playerID) with
      | none => pure ()
      | some i =>
        update players i ({ · with conn := request.conn })
        update players i ({ · with senderID })
        store matchID players

def handleForceLeave (request : Request) : Code :=
  match decodeSessionData request.data with
  | .error _ => pure ()
  | .ok data => removePlayer grow request.env request.conn (data.connTags.get tagMatchID)
      (Strconv.formatInt data.playerId)

/-- `RoomRouter.Handle` -/
def handle (request : Request) : Code :=
  match decodeEnvelope request.data with
  | .error _ => pure ()
  | .ok env =>
    if request.msgID = msgIdRoomJoinReq then handleJoin grow env request.conn
    else if request.msgID = msgIdRoomLeaveReq then handleLeave grow env request
    else if request.msgID = msgIdSessionReconnected then handleReconnected request
    else if request.msgID = msgIdSessionForceLeave then handleForceLeave grow request
    else pure ()

end

def matchID : Message → String
  | .join m _ | .leave m _ | .reconnected m _ _ _ | .forceLeave m _ => m

def room (request : Request) : Option String := (decoded request).map matchID

def InRoom (request : Request) (m : String) : Prop := room request = some m

-- ---------------------------------------------------------------------------
-- One handler, while others work on other rooms
-- ---------------------------------------------------------------------------

def Answers (m : String) (result : Rooms × List Outgoing) (sent : List Outgoing)
    (mem : Mem String RoomPlayer) : Prop :=
  sent = result.2 ∧ mem.view m = result.1.load m

section

variable {R : String → Prop} {mem : Mem String RoomPlayer} {rooms : Rooms} {m : String}

theorem any_of_findIdx? {players : List RoomPlayer}
    (h : players.findIdx? (·.playerID = playerID) = some i) :
    players.any (·.playerID = playerID) = true := by
  rw [← List.findIdx?_isSome, h, Option.isSome_some]

theorem wp_handleJoin (hinv : Owned mem) (hk : R m) (hview : mem.view m = rooms.load m)
    (hm : decodeMatchId env.data = .ok m) (grow : Nat → Nat → Nat) (conn : UInt64) :
    wp frame R (handleJoin grow env conn) (fun _ => Answers m (RoomSvr.handleJoin rooms env conn))
    [] mem := by
  have hlist : (rooms.loadOrStore m []).1 = (mem.view m).getD [] := by
    rw [SyncMap.loadOrStore_fst, hview]
  have hloaded := SyncMap.load_loadOrStore rooms m []
  unfold handleJoin RoomSvr.handleJoin
  rw [hm]
  dsimp only
  rw [hlist] at hloaded ⊢
  refine wp_bind hinv (wp_loadOrStore hinv hk fun m₁ s h₁ hs₁ => ?_)
  generalize (mem.view m).getD [] = players at hs₁ hloaded ⊢
  refine wp_bind h₁ (wp_findIdx h₁ hk hs₁.slice _ fun m₂ h₂ => ?_)
  have hs₂ := hs₁.rely hk h₂
  cases hidx : players.findIdx? (·.playerID = env.connTags.get tagPlayerID) with
  | some i =>
    rw [if_pos (any_of_findIdx? hidx)]
    exact fun u hu => ⟨rfl, (hs₂.rely hk hu).view.trans hloaded.symm⟩
  | none =>
    have hany : ¬ players.any (·.playerID = env.connTags.get tagPlayerID) = true := by
      rw [← List.findIdx?_isSome, hidx]
      simp
    rw [if_neg hany, SyncMap.store_loadOrStore]
    generalize RoomPlayer.mk (env.connTags.get tagPlayerID) conn env.connId = rp
    refine wp_bind h₂.inv (wp_append hk hs₂ grow _ fun m₃ s₃ h₃ hs₃ => ?_)
    refine wp_bind h₃ (wp_store hk hs₃.slice fun m₄ h₄ hs₄ => ?_)
    refine wp_bind h₄ fun m₅ h₅ => ?_
    have hs₅ := hs₄.rely hk h₅
    have hstored : (rooms.store m (players ++ [rp])).load m = some (players ++ [rp]) :=
      SyncMap.load_store_self ..
    rw [← hs₅.slice.length]
    by_cases hone : 1 < (players ++ [rp]).length
    · -- The members before the join are the slice without its last element.
      have hcut : GoSlice.Holds m m₅ (s₃.cut 0 ((players ++ [rp]).length - 1)) players := by
        have h := hs₅.slice.cut (Nat.zero_le ((players ++ [rp]).length - 1))
          (hs₅.slice.length ▸ Nat.sub_le ..)
        simpa using h
      rw [if_pos hone, if_pos hone]
      exact wp_sendEach h₅.inv hk hcut _ fun u hu => ⟨rfl, (hs₅.rely hk hu).view.trans hstored.symm⟩
    · rw [if_neg hone, if_neg hone]
      exact fun u hu => ⟨rfl, (hs₅.rely hk hu).view.trans hstored.symm⟩

theorem wp_removePlayer (hinv : Owned mem) (hk : R m) (hview : mem.view m = rooms.load m)
    (grow : Nat → Nat → Nat) (env : Env) (conn : UInt64) (playerID : String) :
    wp frame R (removePlayer grow env conn m playerID)
      (fun _ => Answers m (RoomSvr.removePlayer env rooms conn m playerID)) [] mem := by
  unfold removePlayer RoomSvr.removePlayer
  refine wp_bind hinv
    (wp_load hinv hk (fun hnone m₁ h₁ hs₁ => ?_) fun m₁ s players hsome h₁ hs₁ => ?_)
  · have hload : rooms.load m = none := hview.symm.trans hnone
    simp only [hload]
    exact fun u hu => ⟨rfl, (view_none ((hu.same m hk).entry.trans hs₁)).trans hload.symm⟩
  · have hload : rooms.load m = some players := hview.symm.trans hsome
    simp only [hload]
    refine wp_bind h₁ (wp_findIdx h₁ hk hs₁.slice _ fun m₂ h₂ => ?_)
    have hs₂ := hs₁.rely hk h₂
    rw [List.find?_eq_bind_findIdx?_getElem?, List.eraseP_eq_eraseIdx]
    cases hidx : players.findIdx? (·.playerID = playerID) with
    | none => exact fun u hu => ⟨rfl, (hs₂.rely hk hu).view.trans hload.symm⟩
    | some i =>
      obtain ⟨hi, -⟩ := List.findIdx?_eq_some_iff_getElem.mp hidx
      have hget : players[i]? = some players[i] := List.getElem?_eq_getElem hi
      rw [Option.bind_some, hget]
      dsimp only
      generalize players[i] = leftPlayer at hget
      refine wp_bind h₂.inv (wp_index hk hs₂.slice hget fun m₃ h₃ => ?_)
      have hlt : i < s.len := by rwa [← hs₂.slice.length]
      refine wp_bind h₃.inv (wp_removeAt hk (hs₂.rely hk h₃) hlt grow fun m₄ s₄ h₄ hs₄ => ?_)
      have hempty : s₄.len = 0 ↔ players.eraseIdx i = [] := by
        rw [← hs₄.slice.length, List.length_eq_zero_iff]
      by_cases hz : players.eraseIdx i = []
      · rw [if_pos (hempty.mpr hz), if_pos hz]
        refine wp_bind h₄ (wp_delete hk fun m₅ h₅ hs₅ => ?_)
        refine wp_bind h₅ (wp_sendAll _ fun m₆ h₆ => ?_)
        refine fun u hu => ⟨rfl, ?_⟩
        rw [SyncMap.load_delete_self]
        exact view_none (((h₆.trans hu).same m hk).entry.trans hs₅)
      · rw [if_neg (hempty.not.mpr hz), if_neg hz]
        refine wp_bind h₄ (wp_store hk hs₄.slice fun m₅ h₅ hs₅ => ?_)
        refine wp_bind h₅ (wp_sendEach h₅ hk hs₅.slice _ fun m₆ h₆ => ?_)
        rw [← hs₅.slice.length]
        refine fun u hu => ⟨rfl, ?_⟩
        rw [SyncMap.load_store_self]
        exact (hs₅.rely hk (h₆.trans hu)).view

theorem wp_handleReconnected (hinv : Owned mem) (hd : decodeSessionData request.data = .ok data)
    (hk : R (data.connTags.get tagMatchID))
    (hview : mem.view (data.connTags.get tagMatchID) = rooms.load (data.connTags.get tagMatchID)) :
    wp frame R (handleReconnected request)
      (fun _ => Answers (data.connTags.get tagMatchID) (RoomSvr.handleReconnected rooms request))
      [] mem := by
  unfold handleReconnected RoomSvr.handleReconnected
  rw [hd]
  dsimp only
  generalize data.connTags.get tagMatchID = m at hk hview ⊢
  generalize Strconv.parseUint (data.connTags.get tagSenderID) = senderID
  refine wp_bind hinv
    (wp_load hinv hk (fun hnone m₁ h₁ hs₁ => ?_) fun m₁ s players hsome h₁ hs₁ => ?_)
  · have hload : rooms.load m = none := hview.symm.trans hnone
    simp only [hload]
    exact fun u hu => ⟨rfl, (view_none ((hu.same m hk).entry.trans hs₁)).trans hload.symm⟩
  · have hload : rooms.load m = some players := hview.symm.trans hsome
    simp only [hload]
    refine wp_bind h₁ (wp_findIdx h₁ hk hs₁.slice _ fun m₂ h₂ => ?_)
    have hs₂ := hs₁.rely hk h₂
    cases players.findIdx? (·.playerID = data.connTags.get tagPlayerID) with
    | none => exact fun u hu => ⟨rfl, (hs₂.rely hk hu).view.trans hload.symm⟩
    | some i =>
      refine wp_bind h₂.inv (wp_update hk hs₂ i _ fun m₃ h₃ hs₃ => ?_)
      refine wp_bind h₃ (wp_update hk hs₃ i _ fun m₄ h₄ hs₄ => ?_)
      rw [List.modify_modify_eq] at hs₄
      refine wp_store hk hs₄.slice fun m₅ h₅ hs₅ => ⟨rfl, ?_⟩
      rw [SyncMap.load_store_self]
      exact hs₅.view

end

/-- The code handles the request as the list model does, with this result. -/
def Meets (request : Request) (code : Code) (result : Rooms × List Outgoing)
    (mem : Mem String RoomPlayer) : Prop :=
  wp frame (InRoom request) code
    (fun _ sent mem' => sent = result.2 ∧ ∀ m, InRoom request m →
      mem'.view m = result.1.load m) [] mem

theorem inRoom_iff (h : decoded request = some msg) : InRoom request m ↔ matchID msg = m := by
  rw [InRoom, room, h, Option.map_some, Option.some.injEq]

theorem Meets.of_answers (h : decoded request = some msg)
    (hwp : wp frame (InRoom request) code (fun _ => Answers (matchID msg) result) [] mem) :
    Meets request code result mem := by
  refine wp_mono hwp fun _ sent mem _ hans => ⟨hans.1, fun m hm => ?_⟩
  rw [← (inRoom_iff h).mp hm]
  exact hans.2

theorem meets_nothing (h : decoded request = none) (outs : List Outgoing) (rooms : Rooms)
    (mem : Mem String RoomPlayer) : Meets request (sendAll outs) (rooms, outs) mem := by
  refine wp_sendAll outs fun u _ => ⟨rfl, fun m hm => ?_⟩
  rw [InRoom, room, h] at hm
  cases hm

section

variable {request : Request} {rooms : Rooms} {mem : Mem String RoomPlayer}
  (hinv : Owned mem) (hview : ∀ m, InRoom request m → mem.view m = rooms.load m)
  (henv : decodeEnvelope request.data = .ok env)

include hinv hview henv

theorem meets_handleJoin (hid : request.msgID = msgIdRoomJoinReq) (grow : Nat → Nat → Nat) :
    Meets request (handleJoin grow env request.conn)
      (RoomSvr.handleJoin rooms env request.conn) mem := by
  have hdec := decoded_join henv hid
  cases hm : decodeMatchId env.data with
  | error matchId =>
    rw [hm] at hdec
    rw [handleJoin, RoomSvr.handleJoin, hm]
    exact meets_nothing hdec [_] rooms mem
  | ok m =>
    rw [hm] at hdec
    have hk : InRoom request m := (inRoom_iff hdec).mpr rfl
    exact .of_answers hdec (wp_handleJoin hinv hk (hview m hk) hm grow _)

theorem meets_handleLeave (hid : request.msgID = msgIdRoomLeaveReq) (grow : Nat → Nat → Nat) :
    Meets request (handleLeave grow env request) (RoomSvr.handleLeave rooms env request) mem := by
  have hdec := decoded_leave henv hid
  rw [handleLeave, RoomSvr.handleLeave]
  cases hm : decodeMatchId env.data with
  | error matchId =>
    rw [hm] at hdec
    exact meets_nothing hdec [] rooms mem
  | ok m =>
    rw [hm] at hdec
    have hk : InRoom request m := (inRoom_iff hdec).mpr rfl
    exact .of_answers hdec (wp_removePlayer hinv hk (hview m hk) grow _ _ _)

theorem meets_handleReconnected (hid : request.msgID = msgIdSessionReconnected) :
    Meets request (handleReconnected request) (RoomSvr.handleReconnected rooms request) mem := by
  have hdec := decoded_reconnected henv hid
  cases hd : decodeSessionData request.data with
  | error data =>
    rw [hd] at hdec
    rw [handleReconnected, RoomSvr.handleReconnected, hd]
    exact meets_nothing hdec [] rooms mem
  | ok data =>
    rw [hd] at hdec
    have hk : InRoom request (data.connTags.get tagMatchID) := (inRoom_iff hdec).mpr rfl
    exact .of_answers hdec (wp_handleReconnected hinv hd hk (hview _ hk))

theorem meets_handleForceLeave (hid : request.msgID = msgIdSessionForceLeave)
    (grow : Nat → Nat → Nat) :
    Meets request (handleForceLeave grow request) (RoomSvr.handleForceLeave rooms request) mem := by
  have hdec := decoded_forceLeave henv hid
  rw [handleForceLeave, RoomSvr.handleForceLeave]
  cases hd : decodeSessionData request.data with
  | error data =>
    rw [hd] at hdec
    exact meets_nothing hdec [] rooms mem
  | ok data =>
    rw [hd] at hdec
    have hk : InRoom request (data.connTags.get tagMatchID) := (inRoom_iff hdec).mpr rfl
    exact .of_answers hdec (wp_removePlayer hinv hk (hview _ hk) grow _ _ _)

end

theorem meets_handle (grow : Nat → Nat → Nat) (hinv : Owned mem)
    (hview : ∀ m, InRoom request m → mem.view m = rooms.load m) :
    Meets request (handle grow request) (RoomSvr.handle rooms request) mem := by
  rw [handle, RoomSvr.handle]
  cases henv : decodeEnvelope request.data with
  | error => exact meets_nothing (by rw [decoded, henv]) [] rooms mem
  | ok env =>
    dsimp only
    by_cases hjoin : request.msgID = msgIdRoomJoinReq
    · rw [if_pos hjoin, if_pos hjoin]
      exact meets_handleJoin hinv hview henv hjoin grow
    rw [if_neg hjoin, if_neg hjoin]
    by_cases hleave : request.msgID = msgIdRoomLeaveReq
    · rw [if_pos hleave, if_pos hleave]
      exact meets_handleLeave hinv hview henv hleave grow
    rw [if_neg hleave, if_neg hleave]
    by_cases hrec : request.msgID = msgIdSessionReconnected
    · rw [if_pos hrec, if_pos hrec]
      exact meets_handleReconnected hinv hview henv hrec
    rw [if_neg hrec, if_neg hrec]
    by_cases hforce : request.msgID = msgIdSessionForceLeave
    · rw [if_pos hforce, if_pos hforce]
      exact meets_handleForceLeave hinv hview henv hforce grow
    rw [if_neg hforce, if_neg hforce]
    exact meets_nothing (by simp [decoded, henv, hjoin, hleave, hrec, hforce]) [] rooms mem

-- ---------------------------------------------------------------------------
-- Every interleaving
-- ---------------------------------------------------------------------------

theorem load_handle_other (rooms : Rooms) (h : ¬ InRoom request n) :
    (RoomSvr.handle rooms request).1.load n = rooms.load n := by
  have hne : ∀ msg, decoded request = some msg → n ≠ matchID msg := fun msg hmsg heq =>
    h ((inRoom_iff hmsg).mpr heq.symm)
  have hchanged := changed rooms request
  generalize (RoomSvr.handle rooms request).1 = rooms' at hchanged
  generalize (RoomSvr.handle rooms request).2 = outs at hchanged
  cases hchanged with
  | refused => rfl
  | joined hmsg => exact SyncMap.load_store_ne _ _ (hne _ hmsg)
  | left hmsg => exact SyncMap.load_store_ne _ _ (hmsg.elim (hne _) (hne _))
  | emptied hmsg => exact SyncMap.load_delete_ne _ (hmsg.elim (hne _) (hne _))
  | readdressed hmsg => exact SyncMap.load_store_ne _ _ (hne _ hmsg)

def sequential (request : Request) (rooms : Rooms) : Rooms × List Outgoing :=
  RoomSvr.handle rooms request

theorem implements (grow : Nat → Nat → Nat) :
    Implements frame (fun _ => InRoom) (handle grow) sequential Mem.view
      fun m rooms => SyncMap.load rooms m where
  same _ _ _ hinv hsame := view_same hinv hsame
  other _ rooms _ h := load_handle_other rooms h
  code _ _ _ hinv hview := meets_handle grow hinv hview

theorem apart_start (s : Goroutine.State Request (Mem String RoomPlayer) Outgoing)
    (request : Request) :
    (∀ i < s.threads.length, ∀ t ∈ s.threads[i]?, t.prog.finished = false →
      ∀ m ∈ room request, room t.request ≠ some m) ↔
      Apart (fun _ => InRoom) sequential ∅ s (.start request) := by
  rw [apart_start_iff]
  rfl

instance (s : Goroutine.State Request (Mem String RoomPlayer) Outgoing) :
    DecidablePred (Apart (fun _ => InRoom) sequential ∅ s)
  | .start request => decidable_of_iff _ (apart_start s request)
  | .run _ => inferInstanceAs (Decidable True)

/-- Every handler that has returned has sent what it would have sent had the requests
come one after the other, in the order they started in. A room that nobody works on has
the members it would have then. A handler that is left alone returns. -/
theorem rooms_serialized (grow : Nat → Nat → Nat)
    (ha : Along (step (handle grow)) (Apart (fun _ => InRoom) sequential ∅) { mem := {} } es)
    (hr : run (step (handle grow)) { mem := {} } es = some s) :
    (∀ (i : Nat) (t : Thread Request (Mem String RoomPlayer) Outgoing), s.threads[i]? = some t →
      t.prog.finished = true →
      t.sent = (RoomSvr.handle (RoomSvr.after (s.requests.take i)) t.request).2) ∧
    (∀ m, (∀ t ∈ s.threads, t.prog.finished = false → room t.request ≠ some m) →
      s.mem.view m = (RoomSvr.after s.requests).load m) ∧
    ∀ i t, s.threads[i]? = some t →
      ∃ n s' t', run (step (handle grow)) s (List.replicate n (.run i)) = some s' ∧
      s'.threads[i]? = some t' ∧ t'.prog.finished = true := by
  have hempty : Owned ({} : Mem String RoomPlayer) := by simp [Owned]
  have hview : ∀ m, ({} : Mem String RoomPlayer).view m = (∅ : Rooms).load m := by simp [Mem.view]
  have h := serializable (implements grow) hempty hview ha hr
  refine ⟨h.done, fun m hm => ?_, fun i t hi => exists_finished (handle grow) s hi⟩
  exact h.idle m fun i t hi => hm t (List.mem_of_getElem? hi)

def joinOf (connId : UInt64) (m playerID : String) : Event Request :=
  .start (fromGateway 1 connId msgIdRoomJoinReq m playerID)

-- Handlers of two rooms take turns, then another one joins the first room.
def twoRooms : List (Event Request) :=
  [joinOf 7 "m" "7", joinOf 8 "n" "8", .run 0, .run 1, .run 0, .run 1, .run 1, .run 0,
    .run 0, .run 1, joinOf 9 "m" "9"]
    ++ List.replicate 7 (.run 2)

theorem twoRooms_serialized :
    ∃ s, run (step (handle double)) { mem := {} } twoRooms = some s ∧
      s.threads.map (·.prog.finished) = [true, true, true] ∧
      s.mem.view "m" = (RoomSvr.after s.requests).load "m" := by
  have hrun : ∃ s ∈ run (step (handle double)) { mem := {} } twoRooms,
      s.threads.map (·.prog.finished) = [true, true, true] ∧
        ∀ t ∈ s.threads, t.prog.finished = false → room t.request ≠ some "m" := by
    decide +kernel
  obtain ⟨s, hs, hfin, hidle⟩ := hrun
  exact ⟨s, hs, hfin, (rooms_serialized double (by decide +kernel) hs).2.1 "m" hidle⟩

-- Players 7, 8 and 9 are in the room. While 10 joins, between the search and the append, 7 leaves.
def overlap : List (Event Request) :=
  [joinOf 7 "m" "7"] ++ List.replicate 4 (.run 0) ++ [joinOf 8 "m" "8"] ++
    List.replicate 7 (.run 1) ++
  [joinOf 9 "m" "9"] ++ List.replicate 10 (.run 2) ++
  [joinOf 10 "m" "10"] ++ List.replicate 4 (.run 3) ++
  [.start (fromGateway 1 7 msgIdRoomLeaveReq "m" "7")] ++ List.replicate 10 (.run 4) ++
  List.replicate 9 (.run 3)

/-- Player 7 is gone, and player 9 is in the room twice. -/
theorem overlap_doubles :
    ∃ s ∈ run (step (handle double)) { mem := {} } overlap,
      s.threads.map (·.prog.finished) = List.replicate 5 true ∧
      (s.mem.view "m").map (·.map (·.playerID)) = some ["8", "9", "9", "10"] := by
  decide +kernel

end Cardwar.RoomSvr.Slices
