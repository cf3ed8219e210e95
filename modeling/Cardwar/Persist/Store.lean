import Cardwar.Lib.Run

/-!
# The journal and snapshot store

A service changes its state in memory and then appends the entry to the
journal; `Snapshot` serialises the state, renames it into place and rotates
the journal. Only appending and rotating hold the store's mutex, so a change
and its append may fall between any two steps of `Snapshot`. `crash` ends the
process between two steps and opens the directory again.

Every line carries the operation that wrote it, which recovery does not look
at. `recover_includes_acked` needs that no rotation removes a line whose change
came after the state was serialised, which the code does not check.
-/

namespace Cardwar.Persist

open Run (run Along)

/-- What a service gives `OpenStore`. Serialised states load back, and
replaying an entry twice is replaying it once. -/
structure Application (σ ε β : Type) where
  initial : σ
  snapshot : σ → β
  loadSnapshot : β → σ
  replay : σ → ε → σ
  load_snapshot : ∀ s, loadSnapshot (snapshot s) = s
  replay_idem : ∀ s e, replay (replay s e) e = replay s e

structure Op (ε : Type) where
  id : Nat
  entry : ε
  deriving DecidableEq

structure Dir (ε β : Type) where
  -- The files snapshot.json, snapshot.json.tmp and journal.log, the last by lines.
  snapshot : Option β := none
  tmp : Option β := none
  journal : List (Op ε) := []

/-- How far the running call of `Snapshot` is. The auto-snapshot loop is its
only caller, so there is at most one. -/
inductive Snapshotting (β : Type)
  | idle
  | serialised (data : β)
  | written
  | renamed

structure Store (σ ε β : Type) where
  dir : Dir ε β := {}
  memory : σ
  /-- Changed in memory, `Append` not yet returned. -/
  pending : List (Op ε) := []
  snapshotting : Snapshotting β := .idle
  closed : Bool := false
  /-- Recreating the journal failed: its file handle is closed. -/
  broken : Bool := false
  issued : Nat := 0
  -- What happened so far, which no code reads: every operation that changed the
  -- state of some process, those whose `Append` returned nil, and those the state
  -- in memory, in `snapshot.json` and the one last serialised come from.
  changed : List (Op ε) := []
  acked : List (Op ε) := []
  applied : List (Op ε) := []
  saved : List (Op ε) := []
  captured : List (Op ε) := []

inductive Event (ε : Type)
  | change (entry : ε)
  | append (id : Nat)
  | serialise (ok : Bool)
  | write (ok : Bool)
  | rename (ok : Bool)
  | rotate (removed reopened : Bool)
  | close
  | crash

section
variable {σ ε β : Type} (app : Application σ ε β)

def replayAll (ops : List (Op ε)) : σ := ops.foldl (fun s op => app.replay s op.entry) app.initial

def loaded (dir : Dir ε β) : σ :=
  match dir.snapshot with
  | none => app.initial
  | some data => app.loadSnapshot data

/-- The state `OpenStore` rebuilds: the snapshot, then every journal line. -/
def recover (dir : Dir ε β) : σ :=
  dir.journal.foldl (fun s op => app.replay s op.entry) (loaded app dir)

def change (s : Store σ ε β) (entry : ε) : Store σ ε β :=
  let op := ⟨s.issued, entry⟩
  { s with
    memory := app.replay s.memory entry
    pending := s.pending ++ [op]
    issued := s.issued + 1
    changed := s.changed ++ [op]
    applied := s.applied ++ [op] }

/-- `Append` of a pending operation. On a closed store, or when the journal's
handle is closed, it returns an error and writes nothing. -/
def append (s : Store σ ε β) (op : Op ε) : Store σ ε β :=
  let pending := s.pending.filter (·.id ≠ op.id)
  if s.closed || s.broken then { s with pending }
  else { s with pending, dir.journal := s.dir.journal ++ [op], acked := s.acked ++ [op] }

/-- The part of `Snapshot` under the mutex. The error of `os.Remove` is
dropped; when opening the fresh file fails the old handle stays closed. -/
def rotate (s : Store σ ε β) (removed reopened : Bool) : Store σ ε β :=
  if s.closed then { s with snapshotting := .idle }
  else { s with
    snapshotting := .idle
    dir.journal := if removed then [] else s.dir.journal
    broken := !reopened }

def reopen (s : Store σ ε β) : Store σ ε β where
  dir := s.dir
  memory := recover app s.dir
  issued := s.issued
  changed := s.changed
  acked := s.acked
  applied := s.saved ++ s.dir.journal
  saved := s.saved

def step (s : Store σ ε β) : Event ε → Option (Store σ ε β)
  | .change entry => some (change app s entry)
  | .append id => (s.pending.find? (·.id = id)).map (append s)
  | .serialise ok => match s.snapshotting with
    | .idle => some (if ok then
        { s with snapshotting := .serialised (app.snapshot s.memory), captured := s.applied }
          else s)
    | _ => none
  | .write ok => match s.snapshotting with
    | .serialised data => some (if ok then { s with snapshotting := .written, dir.tmp := some data }
        else { s with snapshotting := .idle })
    | _ => none
  | .rename ok => match s.snapshotting with
    | .written => some (if ok then
        { s with
          snapshotting := .renamed
          dir.snapshot := s.dir.tmp
          dir.tmp := none
          saved := s.captured }
        else { s with snapshotting := .idle })
    | _ => none
  | .rotate removed reopened => match s.snapshotting with
    | .renamed => some (rotate s removed reopened)
    | _ => none
  | .close => some { s with closed := true }
  | .crash => some (reopen app s)

def init : Store σ ε β := { memory := app.initial }

/-- The state comes from operations that really happened, and every
acknowledged one is among them. -/
def Includes (acked changed : List (Op ε)) (s : σ) : Prop :=
  ∃ ops, acked ⊆ ops ∧ ops ⊆ changed ∧ replayAll app ops = s

/-- Whenever the journal is rotated away, every line in it had changed the
state before this `Snapshot` serialised it. -/
def RotatesCaptured (s : Store σ ε β) : Event ε → Prop
  | .rotate removed _ => removed = true → s.closed = false → s.dir.journal ⊆ s.captured
  | _ => True

theorem recover_eq (h : loaded app dir = replayAll app saved) :
    recover app dir = replayAll app (saved ++ dir.journal) := by
  simp only [recover, h, replayAll, List.foldl_append]

def SnapshotOk (s : Store σ ε β) : Prop :=
  match s.snapshotting with
  | .idle => True
  | .serialised data => app.loadSnapshot data = replayAll app s.captured ∧ s.saved ⊆ s.captured
  | .written => (∃ data, s.dir.tmp = some data ∧ app.loadSnapshot data = replayAll app s.captured) ∧
      s.saved ⊆ s.captured
  | .renamed => s.saved = s.captured

structure Inv (s : Store σ ε β) : Prop where
  memory : s.memory = replayAll app s.applied
  disk : loaded app s.dir = replayAll app s.saved
  acked : ∀ op ∈ s.acked, op ∈ s.saved ∨ op ∈ s.dir.journal
  snapshot : SnapshotOk app s
  saved : s.saved ⊆ s.applied
  journal : s.dir.journal ⊆ s.applied
  pending : s.pending ⊆ s.applied
  captured : s.captured ⊆ s.applied
  applied : s.applied ⊆ s.changed

theorem inv_init : Inv app (init app) := by
  constructor <;> simp [init, replayAll, loaded, SnapshotOk]

theorem inv_change (h : Inv app s) (entry : ε) : Inv app (change app s entry) where
  memory := by simp [change, replayAll, h.memory]
  disk := h.disk
  acked := h.acked
  snapshot := h.snapshot
  saved := List.Subset.trans h.saved (List.subset_append_left ..)
  journal := List.Subset.trans h.journal (List.subset_append_left ..)
  pending := List.append_subset.mpr
    ⟨List.Subset.trans h.pending (List.subset_append_left ..), List.subset_append_right ..⟩
  captured := List.Subset.trans h.captured (List.subset_append_left ..)
  applied := List.append_subset.mpr
    ⟨List.Subset.trans h.applied (List.subset_append_left ..), List.subset_append_right ..⟩

theorem inv_append (h : Inv app s) (hp : op ∈ s.pending) : Inv app (append s op) := by
  have hfilter : s.pending.filter (·.id ≠ op.id) ⊆ s.applied :=
    List.Subset.trans List.filter_sublist.subset h.pending
  simp only [append]
  split
  · exact { h with pending := hfilter, snapshot := h.snapshot }
  · refine { h with pending := hfilter, snapshot := h.snapshot, acked := ?_, journal := ?_ }
    · intro o ho
      rcases List.mem_append.mp ho with ho | ho
      · exact (h.acked o ho).imp_right (List.mem_append_left _)
      · exact .inr (List.mem_append_right _ ho)
    · exact List.append_subset.mpr ⟨h.journal, by simpa using h.pending hp⟩

theorem inv_rotate (h : Inv app s) (hs : s.snapshotting = .renamed)
    (hc : RotatesCaptured s (.rotate removed reopened)) : Inv app (rotate s removed reopened) := by
  have hsaved : s.saved = s.captured := by simpa [SnapshotOk, hs] using h.snapshot
  unfold rotate
  split
  · exact { h with snapshot := trivial }
  · rename_i hopen
    cases removed with
    | false => exact { h with snapshot := trivial }
    | true =>
      refine { h with snapshot := trivial, acked := ?_, journal := List.nil_subset _ }
      intro op hop
      have hcap : s.dir.journal ⊆ s.captured := hc rfl (by simpa using hopen)
      exact .inl ((h.acked op hop).elim id fun hj => hsaved ▸ hcap hj)

theorem inv_reopen (h : Inv app s) : Inv app (reopen app s) where
  memory := recover_eq app h.disk
  disk := h.disk
  acked := h.acked
  snapshot := trivial
  saved := List.subset_append_left ..
  journal := List.subset_append_right ..
  pending := List.nil_subset _
  captured := List.nil_subset _
  applied := List.append_subset.mpr ⟨List.Subset.trans h.saved h.applied,
    List.Subset.trans h.journal h.applied⟩

theorem inv_step (h : Inv app s) (hc : RotatesCaptured s e) (hs : step app s e = some s') :
    Inv app s' := by
  cases e with
  | change entry => exact Option.some.inj hs ▸ inv_change app h entry
  | append id =>
    obtain ⟨op, hop, rfl⟩ := Option.map_eq_some_iff.mp hs
    exact inv_append app h (List.mem_of_find?_eq_some hop)
  | serialise ok =>
    simp only [step] at hs
    split at hs <;> cases hs
    cases ok with
    | false => exact h
    | true =>
      refine { h with snapshot := ⟨?_, h.saved⟩, captured := List.Subset.refl _ }
      show app.loadSnapshot (app.snapshot s.memory) = replayAll app s.applied
      rw [app.load_snapshot, h.memory]
  | write ok =>
    simp only [step] at hs
    split at hs <;> cases hs
    rename_i data hw
    cases ok with
    | false => exact { h with snapshot := trivial }
    | true =>
      have hok : app.loadSnapshot data = replayAll app s.captured ∧ s.saved ⊆ s.captured := by
        simpa [SnapshotOk, hw] using h.snapshot
      exact { h with snapshot := ⟨⟨data, rfl, hok.1⟩, hok.2⟩ }
  | rename ok =>
    simp only [step] at hs
    split at hs <;> cases hs
    rename_i hw
    cases ok with
    | false => exact { h with snapshot := trivial }
    | true =>
      obtain ⟨⟨data, htmp, hdata⟩, hsub⟩ : (∃ data, s.dir.tmp = some data ∧
          app.loadSnapshot data = replayAll app s.captured) ∧ s.saved ⊆ s.captured := by
        simpa [SnapshotOk, hw] using h.snapshot
      refine { h with snapshot := rfl, saved := h.captured, disk := ?_, acked := ?_ }
      · simp [loaded, htmp, hdata]
      · exact fun op hop => (h.acked op hop).imp_left fun hsaved => hsub hsaved
  | rotate removed reopened =>
    simp only [step] at hs
    split at hs <;> cases hs
    rename_i hw
    exact inv_rotate app h hw hc
  | close => exact Option.some.inj hs ▸ { h with snapshot := h.snapshot }
  | crash => exact Option.some.inj hs ▸ inv_reopen app h

/-- Whatever the interleaving and wherever the process dies, opening the
directory rebuilds a state with the effect of every acknowledged entry, as
long as no rotation removes a line the snapshot does not have. -/
theorem recover_includes_acked (ha : Along (step app) RotatesCaptured (init app) es)
    (hr : run (step app) (init app) es = some s) :
    Includes app s.acked s.changed (recover app s.dir) := by
  have h : Inv app s := Run.invariant (P := Inv app) (fun s e s' hi hc => inv_step app hi hc)
    (inv_init app) ha hr
  refine ⟨s.saved ++ s.dir.journal, ?_, ?_, (recover_eq app h.disk).symm⟩
  · exact fun op hop => List.mem_append.mpr (h.acked op hop)
  · exact List.append_subset.mpr ⟨List.Subset.trans h.saved h.applied,
      List.Subset.trans h.journal h.applied⟩

end

def setApp : Application (List Nat) Nat (List Nat) where
  initial := []
  snapshot := id
  loadSnapshot := id
  replay := fun s e => s.insert e
  load_snapshot := fun _ => rfl
  replay_idem := fun _ _ => List.insert_of_mem List.mem_insert_self

theorem mem_replayAll_setApp (ops : List (Op Nat)) (h : op ∈ ops) :
    op.entry ∈ replayAll setApp ops := by
  induction ops using List.reverseRecOn with
  | nil => cases h
  | append_singleton ops o ih =>
    simp only [replayAll, List.foldl_append, List.foldl_cons, List.foldl_nil]
    rcases List.mem_append.mp h with h | h
    · exact List.mem_insert_of_mem (ih h)
    · exact List.mem_singleton.mp h ▸ List.mem_insert_self

def appendInWindow : List (Event Nat) :=
  [.serialise true, .change 7, .append 0, .write true, .rename true, .rotate true true]

/-- The entry was acknowledged, and a crash after this `Snapshot` loses it. -/
theorem appendInWindow_lost :
    ∃ s, run (step setApp) (init setApp) appendInWindow = some s ∧ s.acked = [⟨0, 7⟩] ∧
      recover setApp s.dir = [] ∧ ¬ Includes setApp s.acked s.changed (recover setApp s.dir) := by
  refine ⟨_, rfl, rfl, rfl, ?_⟩
  rintro ⟨ops, hacked, -, hrec⟩
  have hmem := mem_replayAll_setApp ops (hacked (List.mem_singleton_self _))
  rw [hrec] at hmem
  cases hmem

def appendAfterWindow : List (Event Nat) :=
  [.serialise true, .change 7, .write true, .rename true, .rotate true true, .append 0, .crash]

theorem appendAfterWindow_kept :
    ∃ s, run (step setApp) (init setApp) appendAfterWindow = some s ∧
      s.acked = [⟨0, 7⟩] ∧ s.memory = [7] ∧
      Includes setApp s.acked s.changed (recover setApp s.dir) := by
  have ha : Along (step setApp) RotatesCaptured (init setApp) appendAfterWindow := by
    simp [appendAfterWindow, Along, RotatesCaptured, step, init, change]
  exact ⟨_, rfl, rfl, rfl, recover_includes_acked setApp ha rfl⟩

end Cardwar.Persist
