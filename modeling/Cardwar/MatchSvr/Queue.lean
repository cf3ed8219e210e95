import Cardwar.Lib.Batcher
import Cardwar.Lib.Run
import Cardwar.Lib.Slots
import Cardwar.Lib.SyncMap

/-!
# MatchSvr's queues

`handleEnter` loads the queue of its match type, stores it with the player
appended and, when that is enough players, forms a match of the oldest ones
and stores the rest. No lock is held: handlers of different connections run on
different workers, and each operation on the queues map is one step here.

As long as the handlers of one match type do not overlap the steps simulate a
`Batcher`, which loses and duplicates nobody (`entered_once`).
-/

namespace Cardwar.MatchSvr

open Run (run Along)
open Slots (getElem?_snoc getElem?_of_set map_set_eq)

structure QueuedPlayer where
  playerID : Int64
  elo : Int64
  conn : UInt64
  senderID : UInt64
  deriving DecidableEq

def requiredPlayers (matchType : String) : Nat :=
  match matchType with
  | "1v1" => 2
  | "2v2" => 4
  | "3v3" => 6
  | "5v5" => 10
  | _ => 2

/-- The queue operations of `handleEnter` without interruption: the queues and
the pool given to `matchPool`, if any. -/
def enterQueue (queues : SyncMap String (List α)) (matchType : String) (player : α) :
    SyncMap String (List α) × Option (List α) :=
  let (pool, queues) := queues.loadOrStore matchType []
  let pool := pool ++ [player]
  let queues := queues.store matchType pool
  let needed := requiredPlayers matchType
  if needed ≤ pool.length then (queues.store matchType (pool.drop needed), some (pool.take needed))
  else (queues, none)

namespace Queue

-- A queue entry with the number of the request that made it and its match type.
structure Entry where
  request : Nat
  matchType : String
  player : QueuedPlayer
  deriving DecidableEq

inductive Pc
  | loaded (pool : List Entry)
  | full (pool : List Entry)
  | matched (pool : List Entry)
  | done
  deriving DecidableEq

structure Handler where
  own : Entry
  pc : Pc
  deriving DecidableEq

structure State where
  queues : SyncMap String (List Entry) := ∅
  handlers : List Handler := []
  formed : List (List Entry) := []

inductive Event
  /-- A new request: `LoadOrStore`. -/
  | load (matchType : String) (player : QueuedPlayer)
  /-- The first `Store`, and the length check. -/
  | store (i : Nat)
  | form (i : Nat)
  /-- The second `Store`. -/
  | storeRest (i : Nat)

def State.move (s : State) (i : Nat) (own : Entry) (pc : Pc) : State :=
  { s with handlers := s.handlers.set i ⟨own, pc⟩ }

def State.load (s : State) (own : Entry) : State :=
  { s with
    queues := (s.queues.loadOrStore own.matchType []).2
    handlers := s.handlers ++ [⟨own, .loaded (s.queues.loadOrStore own.matchType []).1⟩] }

def step (s : State) : Event → Option State
  | .load matchType player => some (s.load ⟨s.handlers.length, matchType, player⟩)
  | .store i => match s.handlers[i]? with
    | some ⟨own, .loaded pool⟩ =>
      let pool := pool ++ [own]
      let pc := if requiredPlayers own.matchType ≤ pool.length then .full pool else .done
      some { s.move i own pc with queues := s.queues.store own.matchType pool }
    | _ => none
  | .form i => match s.handlers[i]? with
    | some ⟨own, .full pool⟩ =>
      some { s.move i own (.matched pool) with
        formed := s.formed ++ [pool.take (requiredPlayers own.matchType)] }
    | _ => none
  | .storeRest i => match s.handlers[i]? with
    | some ⟨own, .matched pool⟩ =>
      some { s.move i own .done with
        queues := s.queues.store own.matchType (pool.drop (requiredPlayers own.matchType)) }
    | _ => none

def State.queue (s : State) (matchType : String) : List Entry := (s.queues.load matchType).getD []

def State.places (s : State) (e : Entry) : Nat :=
  (s.queue e.matchType).count e + (s.formed.map (·.count e)).sum

/-- A request loads its queue only when every earlier handler of its match
type has finished. -/
def OneAtATime (s : State) : Event → Prop
  | .load matchType _ => ∀ h ∈ s.handlers, h.own.matchType = matchType → h.pc = .done
  | _ => True

instance (s : State) (e : Event) : Decidable (OneAtATime s e) := by
  cases e <;> unfold OneAtATime <;> infer_instance

abbrev Spec := Batcher Entry String

/-- A handler between its steps, against the stored queue of its type and the
queue the batcher has. -/
def Handler.Sees (h : Handler) (queue waiting : List Entry) : Prop :=
  match h.pc with
  | .loaded pool => queue = pool ∧ waiting = pool ++ [h.own]
  | .full pool => queue = pool ∧ waiting = pool
  | .matched pool => queue = pool ∧ waiting = pool.drop (requiredPlayers h.own.matchType)
  | .done => True

structure Sim (s : State) (b : Spec) : Prop where
  entered : b.entered = s.handlers.map (·.own)
  requests : b.entered.map Entry.request = List.range s.handlers.length
  formed : b.batches = s.formed
  busy : ∀ h ∈ s.handlers, h.Sees (s.queue h.own.matchType) (b.waiting h.own.matchType)
  idle : ∀ t, (∀ h ∈ s.handlers, h.own.matchType = t → h.pc = .done) → s.queue t = b.waiting t
  alone : ∀ (i j : Nat) g h, s.handlers[i]? = some g → s.handlers[j]? = some h →
    g.own.matchType = h.own.matchType → g.pc ≠ .done → h.pc ≠ .done → i = j

theorem queue_loadOrStore (s : State) (t u : String) :
    ((s.queues.loadOrStore t []).2.load u).getD [] = s.queue u := by
  unfold SyncMap.loadOrStore State.queue
  split
  next => rfl
  next h =>
    by_cases hu : u = t
    · subst hu
      simp [h]
    · simp [hu]

theorem queue_store (s : State) (t u : String) (pool : List Entry) :
    ((s.queues.store t pool).load u).getD [] = if u = t then pool else s.queue u := by
  rw [SyncMap.load_store]
  split
  next => rfl
  next => rfl

theorem sim_init : Sim {} (Batcher.empty : Spec) := by
  constructor <;> simp [Batcher.empty, State.queue]

theorem handlers_load (s : State) (own : Entry) :
    (s.load own).handlers = s.handlers ++ [⟨own, .loaded (s.queue own.matchType)⟩] := by
  simp only [State.load, SyncMap.loadOrStore_fst]
  rfl

theorem sim_load (h : Sim s b) (hr : own.request = s.handlers.length)
    (hok : ∀ g ∈ s.handlers, g.own.matchType = own.matchType → g.pc = .done) :
    Sim (s.load own) (b.enter Entry.matchType own) := by
  have hqueue (u : String) : (s.load own).queue u = s.queue u := queue_loadOrStore s _ u
  have hhandlers := handlers_load s own
  have hidle : s.queue own.matchType = b.waiting own.matchType := h.idle _ hok
  refine ⟨?_, ?_, h.formed, ?_, ?_, ?_⟩
  · simp [hhandlers, Batcher.enter, h.entered]
  · simp [hhandlers, Batcher.enter, h.requests, List.range_succ, hr]
  · intro g hg
    rw [hqueue]
    rw [hhandlers] at hg
    rcases List.mem_append.mp hg with hg | hg
    · by_cases ht : g.own.matchType = own.matchType
      · simp [Handler.Sees, hok g hg ht]
      · simpa [ht] using h.busy g hg
    · obtain rfl := List.mem_singleton.mp hg
      simp [Handler.Sees, hidle]
  · intro u hu
    rw [hhandlers] at hu
    have hne : u ≠ own.matchType := by
      rintro rfl
      cases hu _ (List.mem_append_right _ (List.mem_singleton_self _)) rfl
    rw [hqueue, Batcher.waiting_enter_ne _ b own hne]
    exact h.idle u fun g hg => hu g (List.mem_append_left _ hg)
  · intro i j g k hg hk hgk hgb hkb
    rw [hhandlers] at hg hk
    -- An old handler of the new one's type is not busy, so `i` and `j` are both old or both new.
    rcases getElem?_snoc hg with hg | ⟨hi, rfl⟩ <;> rcases getElem?_snoc hk with hk | ⟨hj, rfl⟩
    · exact h.alone i j g k hg hk hgk hgb hkb
    · exact absurd (hok g (List.mem_of_getElem? hg) hgk) hgb
    · exact absurd (hok k (List.mem_of_getElem? hk) hgk.symm) hkb
    · exact hi.trans hj.symm

theorem sim_move (h : Sim s b) (hi : s.handlers[i]? = some ⟨own, pc⟩) (hpc : pc ≠ .done)
    (hhandlers : s'.handlers = s.handlers.set i ⟨own, pc'⟩) (hformed : b'.batches = s'.formed)
    (hentered : b'.entered = b.entered)
    (hqueue : ∀ u, u ≠ own.matchType → s'.queue u = s.queue u ∧ b'.waiting u = b.waiting u)
    (hsees : Handler.Sees ⟨own, pc'⟩ (s'.queue own.matchType) (b'.waiting own.matchType))
    (hdone : pc' = .done → s'.queue own.matchType = b'.waiting own.matchType) : Sim s' b' := by
  -- Every other handler of this type has finished.
  have hother (j : Nat) (g : Handler) (hj : j ≠ i) (hg : s.handlers[j]? = some g)
      (ht : g.own.matchType = own.matchType) : g.pc = .done := by
    by_contra hbusy
    exact hj (h.alone j i g _ hg hi ht hbusy hpc)
  refine ⟨?_, ?_, hformed, ?_, ?_, ?_⟩
  · rw [hentered, h.entered, hhandlers]
    exact (map_set_eq (f := Handler.own) (b := ⟨own, pc'⟩) hi rfl).symm
  · rw [hentered, h.requests, hhandlers, List.length_set]
  · intro g hg
    obtain ⟨j, hj⟩ := List.mem_iff_getElem?.mp hg
    rcases getElem?_of_set (hhandlers ▸ hj) with ⟨-, rfl⟩ | ⟨hne, hj⟩
    · exact hsees
    · by_cases ht : g.own.matchType = own.matchType
      · simp [Handler.Sees, hother j g hne hj ht]
      · rw [(hqueue _ ht).1, (hqueue _ ht).2]
        exact h.busy g (List.mem_of_getElem? hj)
  · intro u hu
    by_cases hut : u = own.matchType
    · subst hut
      have hnew : s'.handlers[i]? = some ⟨own, pc'⟩ := by
        simp [hhandlers, (List.getElem?_eq_some_iff.mp hi).1]
      exact hdone (hu _ (List.mem_of_getElem? hnew) rfl)
    · rw [(hqueue u hut).1, (hqueue u hut).2]
      refine h.idle u fun g hg ht => hu g ?_ ht
      obtain ⟨j, hj⟩ := List.mem_iff_getElem?.mp hg
      have hne : i ≠ j := by
        rintro rfl
        rw [hi] at hj
        cases hj
        exact hut ht.symm
      exact List.mem_of_getElem? (hhandlers ▸ (List.getElem?_set_ne hne).trans hj)
  · intro j k f g hf hg hfg hfb hgb
    rw [hhandlers] at hf hg
    rcases getElem?_of_set hf with ⟨hj, rfl⟩ | ⟨hj, hf⟩ <;>
      rcases getElem?_of_set hg with ⟨hk, rfl⟩ | ⟨hk, hg⟩
    · exact hj.trans hk.symm
    · exact absurd (hother k g hk hg hfg.symm) hgb
    · exact absurd (hother j f hj hf hfg) hfb
    · exact h.alone j k f g hf hg hfg hfb hgb

theorem sim_store (h : Sim s b) (hi : s.handlers[i]? = some ⟨own, pc⟩) (hpc : pc ≠ .done)
    (hsees : Handler.Sees ⟨own, pc'⟩ (b.waiting own.matchType) (b.waiting own.matchType)) :
    Sim { s.move i own pc' with
      queues := s.queues.store own.matchType (b.waiting own.matchType) } b := by
  have hqueue (u : String) := queue_store s own.matchType u (b.waiting own.matchType)
  have hnew := (hqueue own.matchType).trans (if_pos rfl)
  refine sim_move h hi hpc rfl h.formed rfl (fun u hu => ⟨(hqueue u).trans (if_neg hu), rfl⟩) ?_
    fun _ => hnew
  unfold State.queue
  rw [hnew]
  exact hsees

/-- Each step is a step of the batcher: the load enters the request, forming
a match forms a batch, the stores change nothing. -/
theorem sim_step (h : Sim s b) (hb : b.Conserves Entry.matchType) (hok : OneAtATime s e)
    (hs : step s e = some s') : ∃ b', Sim s' b' ∧ b'.Conserves Entry.matchType := by
  cases e with
  | load t p =>
    obtain rfl := Option.some.inj hs
    exact ⟨_, sim_load h rfl hok, hb.enter _ _⟩
  | store i =>
    simp only [step] at hs
    split at hs <;> cases hs
    rename_i own pool hi
    obtain ⟨-, hwaiting⟩ := h.busy _ (List.mem_of_getElem? hi)
    rw [← hwaiting]
    refine ⟨b, sim_store h hi (by simp) ?_, hb⟩
    split
    · exact ⟨rfl, rfl⟩
    · trivial
  | form i =>
    simp only [step] at hs
    split at hs <;> cases hs
    rename_i own pool hi
    obtain ⟨hqueue, hwaiting⟩ := h.busy _ (List.mem_of_getElem? hi)
    refine ⟨b.form own.matchType (requiredPlayers own.matchType),
      sim_move h hi (by simp) rfl ?_ rfl ?_ ?_ (fun hpc => by cases hpc), hb.form _ _ _⟩
    · simp only [Batcher.form, h.formed, hwaiting]
    · exact fun u hu => ⟨rfl, Batcher.waiting_form_ne b _ hu⟩
    · exact ⟨hqueue, by rw [Batcher.waiting_form_self, hwaiting]⟩
  | storeRest i =>
    simp only [step] at hs
    split at hs <;> cases hs
    rename_i own pool hi
    obtain ⟨-, hwaiting⟩ := h.busy _ (List.mem_of_getElem? hi)
    rw [← hwaiting]
    exact ⟨b, sim_store h hi (by simp) trivial, hb⟩

theorem sim_run (ha : Along step OneAtATime {} es) (hr : run step {} es = some s) :
    ∃ b, Sim s b ∧ b.Conserves Entry.matchType :=
  Run.invariant (P := fun s => ∃ b, Sim s b ∧ b.Conserves Entry.matchType)
    (fun _ _ _ ⟨_, h, hb⟩ hok hs => sim_step h hb hok hs)
    ⟨_, sim_init, Batcher.conserves_empty _⟩ ha hr

/-- When all handlers have finished, every request's entry is in the queue of
its type or in one match, and there once. -/
theorem entered_once (ha : Along step OneAtATime {} es) (hr : run step {} es = some s)
    (hdone : ∀ h ∈ s.handlers, h.pc = .done) : ∀ h ∈ s.handlers, s.places h.own = 1 := by
  intro h hmem
  obtain ⟨b, hsim, hcons⟩ := sim_run ha hr
  have hentered : h.own ∈ b.entered := hsim.entered ▸ List.mem_map_of_mem hmem
  have hnodup : b.entered.Nodup := .of_map Entry.request (hsim.requests ▸ List.nodup_range)
  have hplaces : s.places h.own = b.places Entry.matchType h.own := by
    simp only [State.places, Batcher.places, hsim.formed, hsim.idle _ fun g hg _ => hdone g hg]
  rw [hplaces, hcons.places]
  exact List.count_eq_one_of_mem hnodup hentered

theorem run_alone (s : State) (t : String) (p : QueuedPlayer) :
    let handled := enterQueue s.queues t ⟨s.handlers.length, t, p⟩
    ∃ es, (run step s (.load t p :: es)).map (fun s' => (s'.queues, s'.formed)) =
      some (handled.1, s.formed ++ handled.2.toList) := by
  by_cases hfull : requiredPlayers t ≤ (s.queues.loadOrStore t []).1.length + 1
  · refine ⟨[.store s.handlers.length, .form s.handlers.length, .storeRest s.handlers.length], ?_⟩
    simp [run, step, State.load, State.move, enterQueue, -SyncMap.loadOrStore_fst, hfull]
  · refine ⟨[.store s.handlers.length], ?_⟩
    simp [run, step, State.load, State.move, enterQueue, -SyncMap.loadOrStore_fst, hfull]

def player (n : Int64) : QueuedPlayer := ⟨n, 1000, 1, n.toUInt64⟩

-- Two requests of one type, the second after the first.
def sequential : List Event :=
  [.load "1v1" (player 7), .store 0, .load "1v1" (player 8), .store 1, .form 1, .storeRest 1]

theorem sequential_matched :
    ∃ s, run step {} sequential = some s ∧
      s.formed = [[⟨0, "1v1", player 7⟩, ⟨1, "1v1", player 8⟩]] ∧ s.queue "1v1" = [] ∧
      ∀ h ∈ s.handlers, s.places h.own = 1 := by
  have ha : Along step OneAtATime {} sequential := by decide
  exact ⟨_, rfl, by decide, by decide, entered_once ha rfl (by decide)⟩

-- The same two requests, both loading the empty queue before either stores.
def overlapping : List Event :=
  [.load "1v1" (player 7), .load "1v1" (player 8), .store 0, .store 1]

-- One player waits; two requests load the queue with that player in it.
def overlappingFull : List Event :=
  [.load "1v1" (player 7), .store 0, .load "1v1" (player 8), .load "1v1" (player 9),
   .store 1, .form 1, .storeRest 1, .store 2, .form 2, .storeRest 2]

/-- Overlapping requests lose a player, and match another one twice. -/
theorem overlapping_lost_and_doubled :
    (∃ s, run step {} overlapping = some s ∧ (∀ h ∈ s.handlers, h.pc = .done) ∧
      ∃ h ∈ s.handlers, s.places h.own = 0) ∧
    ∃ s, run step {} overlappingFull = some s ∧ (∀ h ∈ s.handlers, h.pc = .done) ∧
      ∃ h ∈ s.handlers, s.places h.own = 2 := by
  exact ⟨⟨_, rfl, by decide, by decide⟩, ⟨_, rfl, by decide, by decide⟩⟩

end Queue

end Cardwar.MatchSvr
