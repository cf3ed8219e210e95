import Cardwar.Lib.Run
import Cardwar.Lib.Slots
import Cardwar.RoomSvr.Router

/-!
# Concurrent joins and leaves

A handler that changes a room loads its list, computes a new one and stores it
or deletes the room. Handlers of different connections run on different workers
and take no lock, so other handlers may act in between. Members are kept when
the handlers of a room do not overlap (`members_kept`).
-/

namespace Cardwar.RoomSvr.Concurrent

open Protocol Codec Pkg
open Run (run Along)

inductive Op
  | join
  | leave
  | forceLeave
  deriving DecidableEq

/-- Where a handler is: it has loaded the list and will change it, or it has
finished, with success or without. -/
inductive Pc
  | loaded (players : List RoomPlayer)
  | done (success : Bool)
  deriving DecidableEq

def Pc.finished : Pc → Bool
  | .loaded _ => false
  | .done _ => true

structure Handler where
  op : Op
  matchID : String
  player : RoomPlayer
  pc : Pc
  deriving DecidableEq

structure State where
  rooms : Rooms
  handlers : List Handler := []

inductive Event
  /-- A new request, up to and with the operation that loads the list. -/
  | load (op : Op) (matchID : String) (player : RoomPlayer)
  | store (i : Nat)

/-- LoadOrStore or Load, and the search for the player. -/
def begin (rooms : Rooms) (op : Op) (matchID : String) (player : RoomPlayer) : Rooms × Pc :=
  match op with
  | .join =>
    let (players, rooms) := rooms.loadOrStore matchID []
    (rooms, if players.any (·.playerID = player.playerID) then .done false else .loaded players)
  | .leave | .forceLeave => (rooms, match rooms.load matchID with
    | none => .done false
    | some players => if players.any (·.playerID = player.playerID) then .loaded players
      else .done false)

/-- Store or Delete. -/
def finish (rooms : Rooms) (op : Op) (matchID : String) (player : RoomPlayer)
    (players : List RoomPlayer) : Rooms :=
  match op with
  | .join => rooms.store matchID (players ++ [player])
  | .leave | .forceLeave =>
    let players := players.eraseP (·.playerID = player.playerID)
    if players = [] then rooms.delete matchID else rooms.store matchID players

def step (s : State) : Event → Option State
  | .load op matchID player =>
    let (rooms, pc) := begin s.rooms op matchID player
    some ⟨rooms, s.handlers ++ [⟨op, matchID, player, pc⟩]⟩
  | .store i => match s.handlers[i]? with
    | some ⟨op, matchID, player, .loaded players⟩ =>
      some ⟨finish s.rooms op matchID player players,
        s.handlers.set i ⟨op, matchID, player, .done true⟩⟩
    | _ => none

/-- The requests are of different players. -/
def NewPlayer (s : State) : Event → Prop
  | .load _ _ player => ∀ h ∈ s.handlers, h.player.playerID ≠ player.playerID
  | .store _ => True

/-- A handler loads its room only while every other handler of the room has
finished. -/
def Apart (s : State) : Event → Prop
  | .load _ matchID _ => ∀ h ∈ s.handlers, h.matchID = matchID → h.pc.finished
  | .store _ => True

instance (s : State) (e : Event) : Decidable (NewPlayer s e) := by
  cases e <;> unfold NewPlayer <;> infer_instance

instance (s : State) (e : Event) : Decidable (Apart s e) := by
  cases e <;> unfold Apart <;> infer_instance

-- ---------------------------------------------------------------------------
-- One handler
-- ---------------------------------------------------------------------------

def members (rooms : Rooms) (m : String) : List RoomPlayer := (rooms.load m).getD []

def ids (rooms : Rooms) (m : String) : List String := (members rooms m).map (·.playerID)

theorem members_begin (rooms : Rooms) (op : Op) (m : String) (player : RoomPlayer) (n : String) :
    members (begin rooms op m player).1 n = members rooms n := by
  cases op with
  | join =>
    simp only [begin, members, SyncMap.loadOrStore]
    cases hm : rooms.load m with
    | some players => rfl
    | none =>
      by_cases hn : n = m
      · simp [hn, hm]
      · simp [hn]
  | leave => rfl
  | forceLeave => rfl

theorem any_player (players : List RoomPlayer) (playerID : String) :
    players.any (·.playerID = playerID) ↔ playerID ∈ players.map (·.playerID) := by
  simp [List.any_eq_true, List.mem_map]

theorem begin_loaded (h : (begin rooms op m player).2 = .loaded players) :
    players = members rooms m ∧ (op = .join ↔ player.playerID ∉ ids rooms m) := by
  cases op with
  | join =>
    simp only [begin, SyncMap.loadOrStore_fst] at h
    split at h
    · cases h
    next hnot =>
      cases h
      exact ⟨rfl, iff_of_true rfl fun hmem => hnot ((any_player _ _).mpr hmem)⟩
  | leave | forceLeave =>
    simp only [begin] at h
    split at h
    next => cases h
    next l hl =>
      split at h
      next hin =>
        cases h
        have hmem : members rooms m = players := by simp [members, hl]
        refine ⟨hmem.symm, iff_of_false (by simp) ?_⟩
        rw [ids, hmem, not_not]
        exact (any_player _ _).mp hin
      · cases h

theorem begin_done (h : (begin rooms op m player).2 = .done success) :
    success = false ∧ (op = .join ↔ player.playerID ∈ ids rooms m) := by
  cases op with
  | join =>
    simp only [begin, SyncMap.loadOrStore_fst] at h
    split at h
    next hin =>
      cases h
      exact ⟨rfl, iff_of_true rfl ((any_player _ _).mp hin)⟩
    · cases h
  | leave | forceLeave =>
    simp only [begin] at h
    split at h
    next hl =>
      cases h
      exact ⟨rfl, iff_of_false (by simp) (by simp [ids, members, hl])⟩
    next l hl =>
      split at h
      · cases h
      next hnot =>
        cases h
        refine ⟨rfl, iff_of_false (by simp) fun hmem => hnot ((any_player _ _).mpr ?_)⟩
        simpa [ids, members, hl] using hmem

theorem members_finish_ne (hn : n ≠ m) (op : Op) (player : RoomPlayer) (players : List RoomPlayer) :
    members (finish rooms op m player players) n = members rooms n := by
  cases op with
  | join => simp [finish, members, hn]
  | leave | forceLeave =>
    simp only [finish]
    split <;> simp [members, hn]

theorem members_finish (rooms : Rooms) (op : Op) (m : String) (player : RoomPlayer)
    (players : List RoomPlayer) :
    members (finish rooms op m player players) m =
      if op = .join then players ++ [player]
      else players.eraseP (·.playerID = player.playerID) := by
  cases op with
  | join => simp [finish, members]
  | leave | forceLeave =>
    simp only [finish]
    split
    next hempty => simp [members, hempty]
    next => simp [members]

section Finish

variable {rooms : Rooms} {op : Op} {m : String} {player : RoomPlayer}

theorem ids_finish (rooms : Rooms) (op : Op) (m : String) (player : RoomPlayer) :
    ids (finish rooms op m player (members rooms m)) m =
      if op = .join then ids rooms m ++ [player.playerID]
      else (ids rooms m).erase player.playerID := by
  rw [ids, members_finish]
  split
  · simp [ids]
  · rw [ids, List.erase_eq_eraseP', List.eraseP_map]
    rfl

theorem nodup_finish (hnodup : ∀ n, (ids rooms n).Nodup)
    (hop : op = .join ↔ player.playerID ∉ ids rooms m) (n : String) :
    (ids (finish rooms op m player (members rooms m)) n).Nodup := by
  by_cases hn : n = m
  · subst hn
    rw [ids_finish]
    split
    next hjoin =>
      have hnew := hop.mp hjoin
      exact List.Nodup.append (hnodup n) (List.nodup_singleton _) (by simpa using hnew)
    next => exact (hnodup n).erase _
  · rw [ids, members_finish_ne hn]
    exact hnodup n

theorem mem_finish_other (hid : pid ≠ player.playerID) (n : String) :
    pid ∈ ids (finish rooms op m player (members rooms m)) n ↔ pid ∈ ids rooms n := by
  by_cases hn : n = m
  · subst hn
    rw [ids_finish]
    split
    · simp [hid]
    · exact List.mem_erase_of_ne hid
  · rw [ids, members_finish_ne hn, ids]

theorem mem_finish_self (hnodup : (ids rooms m).Nodup) :
    player.playerID ∈ ids (finish rooms op m player (members rooms m)) m ↔ op = .join := by
  rw [ids_finish]
  split
  next hjoin => simp [hjoin]
  next hjoin => simp [hjoin, hnodup.mem_erase_iff]

end Finish

-- ---------------------------------------------------------------------------
-- All handlers
-- ---------------------------------------------------------------------------

def Handler.call (h : Handler) : Op × String × String := (h.op, h.matchID, h.player.playerID)

structure Inv (start : Rooms) (s : State) : Prop where
  nodup : ∀ m, (ids s.rooms m).Nodup
  players : (s.handlers.map (·.player.playerID)).Nodup
  apart : ∀ h ∈ s.handlers, ∀ h' ∈ s.handlers, ∀ players players', h.pc = .loaded players →
    h'.pc = .loaded players' → h.matchID = h'.matchID → h.player.playerID = h'.player.playerID
  loaded : ∀ h ∈ s.handlers, ∀ players, h.pc = .loaded players →
    players = members s.rooms h.matchID ∧ (h.op = .join ↔ h.player.playerID ∉ ids s.rooms h.matchID)
  joined : ∀ h ∈ s.handlers, h.op = .join → h.pc = .done true →
    h.player.playerID ∈ ids s.rooms h.matchID
  left : ∀ h ∈ s.handlers, h.op ≠ .join → ∀ success, h.pc = .done success →
    h.player.playerID ∉ ids s.rooms h.matchID
  kept : ∀ m pid, pid ∈ ids start m → (∀ op ≠ .join, (op, m, pid) ∉ s.handlers.map Handler.call) →
    pid ∈ ids s.rooms m

theorem inv_start (h : Distinct rooms) : Inv rooms ⟨rooms, []⟩ := by
  refine ⟨fun m => ?_, List.nodup_nil, ?_, ?_, ?_, ?_, fun m pid hpid _ => hpid⟩
  · cases hm : rooms.load m with
    | none => simp [ids, members, hm]
    | some players => simpa [ids, members, hm] using h m players hm
  all_goals exact fun h hh => absurd hh (List.not_mem_nil)

theorem inv_load (h : Inv start s) (hnew : NewPlayer s (.load op m player))
    (hapart : Apart s (.load op m player)) (hbegin : begin s.rooms op m player = (rooms, pc)) :
    Inv start ⟨rooms, s.handlers ++ [⟨op, m, player, pc⟩]⟩ := by
  have hmembers : ∀ n, members rooms n = members s.rooms n := fun n => by
    rw [← members_begin s.rooms op m player n, hbegin]
  have hids : ∀ n, ids rooms n = ids s.rooms n := fun n => by rw [ids, hmembers, ids]
  have hpc : (begin s.rooms op m player).2 = pc := by rw [hbegin]
  constructor
  · exact fun n => hids n ▸ h.nodup n
  · rw [List.map_append, List.map_singleton]
    refine List.Nodup.append h.players (List.nodup_singleton _) ?_
    intro id hid hself
    obtain ⟨h', hh', rfl⟩ := List.mem_map.mp hid
    exact hnew h' hh' (List.mem_singleton.mp hself)
  · intro h₁ hh₁ h₂ hh₂ players players' hp hp' hm
    rcases List.mem_append.mp hh₁ with hh₁ | hh₁ <;> rcases List.mem_append.mp hh₂ with hh₂ | hh₂
    · exact h.apart h₁ hh₁ h₂ hh₂ players players' hp hp' hm
    · obtain rfl := List.mem_singleton.mp hh₂
      simpa [hp, Pc.finished] using hapart h₁ hh₁ hm
    · obtain rfl := List.mem_singleton.mp hh₁
      simpa [hp', Pc.finished] using hapart h₂ hh₂ hm.symm
    · rw [List.mem_singleton.mp hh₁, List.mem_singleton.mp hh₂]
  · intro h' hh' players hp
    rw [hmembers, hids]
    rcases List.mem_append.mp hh' with hh' | hh'
    · exact h.loaded h' hh' players hp
    · obtain rfl := List.mem_singleton.mp hh'
      exact begin_loaded (hpc.trans hp)
  · intro h' hh' hop hp
    rw [hids]
    rcases List.mem_append.mp hh' with hh' | hh'
    · exact h.joined h' hh' hop hp
    · obtain rfl := List.mem_singleton.mp hh'
      exact absurd (begin_done (hpc.trans hp)).1 (by simp)
  · intro h' hh' hop success hp
    rw [hids]
    rcases List.mem_append.mp hh' with hh' | hh'
    · exact h.left h' hh' hop success hp
    · obtain rfl := List.mem_singleton.mp hh'
      exact fun hmem => hop ((begin_done (hpc.trans hp)).2.mpr hmem)
  · intro n pid hpid hnone
    rw [hids]
    refine h.kept n pid hpid fun op hop hmem => hnone op hop ?_
    rw [List.map_append]
    exact List.mem_append_left _ hmem

theorem inv_store (h : Inv start s) (hi : s.handlers[i]? = some ⟨op, m, player, .loaded players⟩) :
    Inv start ⟨finish s.rooms op m player players,
      s.handlers.set i ⟨op, m, player, .done true⟩⟩ := by
  have hself : ⟨op, m, player, .loaded players⟩ ∈ s.handlers := List.mem_of_getElem? hi
  obtain ⟨hplayers, hop⟩ := h.loaded _ hself players rfl
  dsimp only at hplayers hop
  subst hplayers
  have hset : ∀ h' ∈ s.handlers.set i ⟨op, m, player, .done true⟩,
      h' = ⟨op, m, player, .done true⟩ ∨
      h' ∈ s.handlers ∧ h'.player.playerID ≠ player.playerID :=
    fun h' hh' => Slots.mem_of_set (f := fun h => h.player.playerID) h.players hi hh'
  constructor
  · exact nodup_finish h.nodup hop
  · rw [Slots.map_set_eq (f := fun h => h.player.playerID)
      (b := ⟨op, m, player, .done true⟩) hi rfl]
    exact h.players
  · intro h₁ hh₁ h₂ hh₂ players players' hp hp' hm
    rcases hset h₁ hh₁ with rfl | ⟨hh₁, -⟩
    · cases hp
    rcases hset h₂ hh₂ with rfl | ⟨hh₂, -⟩
    · cases hp'
    exact h.apart h₁ hh₁ h₂ hh₂ players players' hp hp' hm
  · intro h' hh' players hp
    rcases hset h' hh' with rfl | ⟨hh', hne⟩
    · cases hp
    -- The other handlers that go on are in other rooms.
    have hroom : h'.matchID ≠ m := fun hm => hne (h.apart h' hh' _ hself players _ hp rfl hm)
    rw [members_finish_ne hroom, ids, members_finish_ne hroom]
    exact h.loaded h' hh' players hp
  · intro h' hh' hjoin hp
    rcases hset h' hh' with rfl | ⟨hh', hne⟩
    · exact (mem_finish_self (h.nodup m)).mpr hjoin
    · exact (mem_finish_other hne _).mpr (h.joined h' hh' hjoin hp)
  · intro h' hh' hleave success hp
    rcases hset h' hh' with rfl | ⟨hh', hne⟩
    · exact fun hmem => hleave ((mem_finish_self (h.nodup m)).mp hmem)
    · exact fun hmem => h.left h' hh' hleave success hp ((mem_finish_other hne _).mp hmem)
  · intro n pid hpid hnone
    rw [Slots.map_set_eq (f := Handler.call) (b := ⟨op, m, player, .done true⟩) hi rfl] at hnone
    have hold := h.kept n pid hpid hnone
    by_cases hpl : pid = player.playerID
    · subst hpl
      by_cases hn : n = m
      · -- The member itself is the one the handler is for; it was no leave.
        subst hn
        rw [mem_finish_self (h.nodup n)]
        by_contra hleave
        exact hnone op hleave (List.mem_map.mpr ⟨_, hself, rfl⟩)
      · rw [ids, members_finish_ne hn]
        exact hold
    · exact (mem_finish_other hpl n).mpr hold

theorem inv_step (h : Inv start s) (hok : NewPlayer s e ∧ Apart s e) (hs : step s e = some s') :
    Inv start s' := by
  cases e with
  | load op m player => exact Option.some.inj hs ▸ inv_load h hok.1 hok.2 rfl
  | store i =>
    simp only [step] at hs
    split at hs <;> cases hs
    next hi => exact inv_store h hi

def times (rooms : Rooms) (m playerID : String) : Nat :=
  (members rooms m).countP (·.playerID = playerID)

theorem times_eq_count (rooms : Rooms) (m playerID : String) :
    times rooms m playerID = (ids rooms m).count playerID := by
  rw [times, ids, List.count, List.countP_map]
  rfl

/-- When the handlers of a room do not overlap and all have finished, players
who joined and members nobody removed are in their room once, and nobody who
left is. -/
theorem members_kept (h0 : Distinct rooms) (hnew : Along step NewPlayer ⟨rooms, []⟩ es)
    (hapart : Along step Apart ⟨rooms, []⟩ es) (hr : run step ⟨rooms, []⟩ es = some s)
    (hdone : ∀ h ∈ s.handlers, h.pc.finished) :
    (∀ h ∈ s.handlers, h.op = .join → h.pc = .done true →
      times s.rooms h.matchID h.player.playerID = 1) ∧
    (∀ m pid, times rooms m pid = 1 →
      (∀ h ∈ s.handlers, h.op ≠ .join → h.matchID = m → h.player.playerID ≠ pid) →
      times s.rooms m pid = 1) ∧
    ∀ h ∈ s.handlers, h.op ≠ .join → times s.rooms h.matchID h.player.playerID = 0 := by
  have hi : Inv rooms s :=
    Run.invariant (fun _ _ _ hinv hok hs => inv_step hinv hok hs) (inv_start h0)
      (hnew.and hapart) hr
  simp only [times_eq_count]
  refine ⟨fun h hh hjoin hp => ?_, fun m pid hpid hnone => ?_, fun h hh hleave => ?_⟩
  · exact List.count_eq_one_of_mem (hi.nodup _) (hi.joined h hh hjoin hp)
  · have hmem : pid ∈ ids rooms m := List.count_pos_iff.mp (by omega)
    refine List.count_eq_one_of_mem (hi.nodup _) (hi.kept m pid hmem fun op hop hcall => ?_)
    obtain ⟨h, hh, hcall⟩ := List.mem_map.mp hcall
    cases hcall
    exact hnone h hh hop rfl rfl
  · have hfinished := hdone h hh
    cases hp : h.pc with
    | loaded players => simp [hp, Pc.finished] at hfinished
    | done success => exact List.count_eq_zero_of_not_mem (hi.left h hh hleave success hp)

def alone (rooms : Rooms) (op : Op) (m : String) (player : RoomPlayer) : Rooms :=
  match begin rooms op m player with
  | (rooms, .loaded players) => finish rooms op m player players
  | (rooms, .done _) => rooms

theorem run_alone (s : State) (op : Op) (m : String) (player : RoomPlayer) :
    ∃ es, (run step s (.load op m player :: es)).map State.rooms =
      some (alone s.rooms op m player) := by
  cases hbegin : begin s.rooms op m player with
  | mk rooms pc =>
    cases pc with
    | loaded players => exact ⟨[.store s.handlers.length], by simp [run, step, hbegin, alone]⟩
    | done success => exact ⟨[], by simp [run, step, hbegin, alone]⟩

theorem handleJoin_alone (hm : decodeMatchId env.data = .ok m) (rooms : Rooms) (conn : UInt64) :
    (handleJoin rooms env conn).1 = alone rooms .join m ⟨env.connTags.get tagPlayerID,
      conn, env.connId⟩ := by
  simp only [handleJoin, hm, alone, begin]
  split <;> rfl

theorem removePlayer_alone (hop : op ≠ .join) (env : Env) (rooms : Rooms) (conn : UInt64)
    (m : String) (player : RoomPlayer) :
    (removePlayer env rooms conn m player.playerID).1 = alone rooms op m player := by
  have hfind (players : List RoomPlayer) : (players.find? (·.playerID = player.playerID)).isSome =
      players.any (·.playerID = player.playerID) := List.isSome_find? ..
  cases op with
  | join => exact absurd rfl hop
  | leave | forceLeave =>
    unfold removePlayer
    simp only [alone, begin]
    cases rooms.load m with
    | none => rfl
    | some players =>
      dsimp only
      rw [← hfind players]
      cases players.find? (·.playerID = player.playerID) with
      | none => rfl
      | some leftPlayer =>
        simp only [Option.isSome_some, if_true, finish]
        split <;> rfl

def player (playerID : String) : RoomPlayer := ⟨playerID, 1, 3⟩

def oneMember : Rooms := (∅ : Rooms).store "m" [player "7"]

-- Player 8 joins, then player 7 leaves.
def inTurn : List Event :=
  [.load .join "m" (player "8"), .store 0, .load .leave "m" (player "7"), .store 1]

theorem inTurn_kept :
    ∃ s, run step ⟨oneMember, []⟩ inTurn = some s ∧ times s.rooms "m" "8" = 1 ∧
      times s.rooms "m" "7" = 0 := by
  have hdistinct : Distinct oneMember :=
    distinct_store (fun m players h => by simp at h) (by decide)
  have hnew : Along step NewPlayer ⟨oneMember, []⟩ inTurn := by decide
  have hapart : Along step Apart ⟨oneMember, []⟩ inTurn := by decide
  have hkept := members_kept hdistinct hnew hapart rfl (by decide)
  exact ⟨_, rfl, hkept.1 _ List.mem_cons_self rfl rfl,
    hkept.2.2 _ (List.mem_cons_of_mem _ List.mem_cons_self)
    (by decide)⟩

-- Players 8 and 9 join at the same time.
def twoJoins : List Event :=
  [.load .join "m" (player "8"), .load .join "m" (player "9"), .store 0, .store 1]

-- Player 8 joins while player 7 leaves.
def joinAndLeave : List Event :=
  [.load .join "m" (player "8"), .load .leave "m" (player "7"), .store 1, .store 0]

/-- All handlers succeed, but player 8 is not in the room, and player 7 is. -/
theorem overlapping_members :
    (Along step NewPlayer ⟨oneMember, []⟩ twoJoins ∧
      Along step NewPlayer ⟨oneMember, []⟩ joinAndLeave) ∧
    (∃ s, run step ⟨oneMember, []⟩ twoJoins = some s ∧
      s.handlers.map (·.pc) = [.done true, .done true] ∧
      s.rooms.load "m" = some [player "7", player "9"]) ∧
    ∃ s, run step ⟨oneMember, []⟩ joinAndLeave = some s ∧
      s.handlers.map (·.pc) = [.done true, .done true] ∧
      s.rooms.load "m" = some [player "7", player "8"] :=
  ⟨by decide, ⟨_, rfl, rfl, rfl⟩, ⟨_, rfl, rfl, rfl⟩⟩

end Cardwar.RoomSvr.Concurrent
