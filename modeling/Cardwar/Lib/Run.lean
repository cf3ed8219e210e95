import Mathlib

/-!
# Runs of a step function

A component is a partial step function on its states: an event that cannot
happen in a state has no successor. `run` executes a list of events, `Along`
says that every step taken meets a condition in the state it starts from.
Every list of events is allowed, so a statement about the end of each run is
a statement about each state reached.
-/

namespace Cardwar.Run

variable {σ ε : Type} {step : σ → ε → Option σ} {ok : σ → ε → Prop}

def run (step : σ → ε → Option σ) : σ → List ε → Option σ
  | s, [] => some s
  | s, e :: es => (step s e).bind (run step · es)

/-- Every step of the run meets `ok` in the state before it. A run ends at
the first event that cannot happen, so nothing is asked beyond it. -/
def Along (step : σ → ε → Option σ) (ok : σ → ε → Prop) : σ → List ε → Prop
  | _, [] => True
  | s, e :: es => ok s e ∧ ∀ s' ∈ step s e, Along step ok s' es

instance decidableAlong [∀ s e, Decidable (ok s e)] : ∀ s es, Decidable (Along step ok s es)
  | _, [] => inferInstanceAs (Decidable True)
  | s, e :: es =>
    have := fun s' => decidableAlong s' es
    inferInstanceAs (Decidable (ok s e ∧ ∀ s' ∈ step s e, Along step ok s' es))

theorem run_cons (h : run step s (e :: es) = some s') :
    ∃ m, step s e = some m ∧ run step m es = some s' :=
  Option.bind_eq_some_iff.mp h

theorem run_append (xs ys : List ε) (h : run step s xs = some m) :
    run step s (xs ++ ys) = run step m ys := by
  induction xs generalizing s with
  | nil => exact Option.some.inj h ▸ rfl
  | cons e xs ih =>
    obtain ⟨t, ht, hrest⟩ := run_cons h
    rw [List.cons_append, run, ht, Option.bind_some, ih hrest]

theorem run_split {xs ys : List ε} (h : run step s (xs ++ ys) = some s') :
    ∃ m, run step s xs = some m ∧ run step m ys = some s' := by
  induction xs generalizing s with
  | nil => exact ⟨s, rfl, h⟩
  | cons e xs ih =>
    obtain ⟨t, ht, hrest⟩ := run_cons h
    obtain ⟨m, hm, hys⟩ := ih hrest
    exact ⟨m, by rw [run, ht, Option.bind_some, hm], hys⟩

/-- The induction of every safety argument: what holds at the start and is
kept by each step that meets the condition holds after every such run. -/
theorem invariant {P : σ → Prop} (keep : ∀ s e s', P s → ok s e → step s e = some s' → P s')
    (h0 : P s) (ha : Along step ok s es) (hr : run step s es = some s') : P s' := by
  induction es generalizing s with
  | nil => exact Option.some.inj hr ▸ h0
  | cons e es ih =>
    obtain ⟨m, hm, hrest⟩ := run_cons hr
    exact ih (keep s e m h0 ha.1 hm) (ha.2 m hm) hrest

theorem along_of_forall (h : ∀ e ∈ es, ∀ s, ok s e) (s : σ) : Along step ok s es := by
  induction es generalizing s with
  | nil => trivial
  | cons e es ih =>
    exact ⟨h e List.mem_cons_self s, fun m _ => ih (fun d hd => h d (List.mem_cons_of_mem e hd)) m⟩

theorem along_of_reached
    (h : ∀ pre e post m, es = pre ++ e :: post → run step s pre = some m → ok m e) :
    Along step ok s es := by
  induction es generalizing s with
  | nil => trivial
  | cons e es ih =>
    refine ⟨h [] e es s rfl rfl, fun m hm => ih fun pre d post t heq hr => ?_⟩
    refine h (e :: pre) d post t (by rw [heq, List.cons_append]) ?_
    rw [run, Option.mem_def.mp hm, Option.bind_some, hr]

theorem Along.and {ok' : σ → ε → Prop} (h : Along step ok s es) (h' : Along step ok' s es) :
    Along step (fun s e => ok s e ∧ ok' s e) s es := by
  induction es generalizing s with
  | nil => trivial
  | cons e es ih => exact ⟨⟨h.1, h'.1⟩, fun m hm => ih (h.2 m hm) (h'.2 m hm)⟩

theorem Along.imp {I : σ → Prop} {ok' : σ → ε → Prop} (ha : Along step ok s es)
    (keep : ∀ s e s', I s → ok s e → step s e = some s' → I s')
    (imp : ∀ s e, I s → ok s e → ok' s e) (hi : I s) : Along step ok' s es := by
  induction es generalizing s with
  | nil => trivial
  | cons e es ih => exact ⟨imp s e hi ha.1, fun m hm => ih (ha.2 m hm) (keep s e m hi ha.1 hm)⟩

theorem along_iff {I : σ → Prop} {ok' : σ → ε → Prop}
    (keep : ∀ s e s', I s → ok s e → step s e = some s' → I s')
    (agree : ∀ s e, I s → (ok s e ↔ ok' s e)) (hi : I s) :
    Along step ok s es ↔ Along step ok' s es := by
  induction es generalizing s with
  | nil => exact Iff.rfl
  | cons e es ih =>
    refine (and_congr_right fun hok => ?_).trans (and_congr_left fun _ => agree s e hi)
    exact forall₂_congr fun m hm => ih (keep s e m hi hok hm)

/-- When the successors of a good state are good exactly if the step meets the
condition, every state reached is good exactly if all steps meet the condition.
`I` is what every state has, good or not, and `A` says which events are looked at. -/
theorem reached_iff {P I : σ → Prop} {A : ε → Prop}
    (keep : ∀ s e s', I s → A e → step s e = some s' → I s')
    (exact : ∀ s e, I s → P s → A e → ((∀ s' ∈ step s e, P s') ↔ ok s e))
    (hi : I s) (h0 : P s) (hes : ∀ e ∈ es, A e) :
    (∀ pre s', pre <+: es → run step s pre = some s' → P s') ↔ Along step ok s es := by
  induction es generalizing s with
  | nil =>
    refine ⟨fun _ => trivial, fun _ pre s' hp hr => ?_⟩
    obtain rfl := List.prefix_nil.mp hp
    exact Option.some.inj hr ▸ h0
  | cons e es ih =>
    have he := hes e List.mem_cons_self
    have hrest : ∀ d ∈ es, A d := fun d hd => hes d (List.mem_cons_of_mem e hd)
    constructor
    · intro h
      have hone : ∀ m ∈ step s e, P m :=
        fun m hm => h [e] m ⟨es, rfl⟩ (by simp [run, Option.mem_def.mp hm])
      refine ⟨(exact s e hi h0 he).mp hone, fun m hm => ?_⟩
      refine (ih (keep s e m hi he hm) (hone m hm) hrest).mp fun pre s' hp hr => ?_
      refine h (e :: pre) s' (List.cons_prefix_cons.mpr ⟨rfl, hp⟩) ?_
      rw [run, Option.mem_def.mp hm, Option.bind_some]
      exact hr
    · rintro ⟨hok, hafter⟩ pre s' hp hr
      cases pre with
      | nil => exact Option.some.inj hr ▸ h0
      | cons d pre =>
        obtain ⟨rfl, htail⟩ := List.cons_prefix_cons.mp hp
        obtain ⟨m, hm, hr⟩ := run_cons hr
        have hm1 := (exact s d hi h0 he).mpr hok m hm
        exact (ih (keep s d m hi he hm) hm1 hrest).mpr (hafter m hm) pre s' htail hr

/-- A handler that never blocks, as a step function. -/
def total (f : σ → ε → σ) : σ → ε → Option σ := fun s e => some (f s e)

theorem along_total_cons {f : σ → ε → σ} :
    Along (total f) ok s (e :: es) ↔ ok s e ∧ Along (total f) ok (f s e) es := by
  simp [Along, total]

theorem total_invariant {f : σ → ε → σ} {P : σ → Prop} (keep : ∀ s e, P s → ok s e → P (f s e))
    (h0 : P s) (ha : Along (total f) ok s es) : P (es.foldl f s) := by
  induction es generalizing s with
  | nil => exact h0
  | cons e es ih =>
    obtain ⟨he, hrest⟩ := along_total_cons.mp ha
    exact ih (keep s e h0 he) hrest

/-- When a step from a good state is good exactly if it meets the condition,
all states of a run are good exactly if all its steps meet the condition.
`I` is what every state has, good or not. -/
theorem prefixes_iff {f : σ → ε → σ} {P I : σ → Prop}
    (keep : ∀ s e, I s → I (f s e)) (exact : ∀ s e, I s → P s → (P (f s e) ↔ ok s e))
    (hi : I s) (h0 : P s) :
    (∀ pre, pre <+: es → P (pre.foldl f s)) ↔ Along (total f) ok s es := by
  induction es generalizing s with
  | nil =>
    refine ⟨fun _ => trivial, fun _ pre hp => ?_⟩
    rw [List.prefix_nil.mp hp]
    exact h0
  | cons e es ih =>
    rw [along_total_cons]
    constructor
    · intro h
      have h1 : P (f s e) := h [e] ⟨es, rfl⟩
      refine ⟨(exact s e hi h0).mp h1, (ih (keep s e hi) h1).mp fun pre hp => ?_⟩
      exact h (e :: pre) (List.cons_prefix_cons.mpr ⟨rfl, hp⟩)
    · rintro ⟨he, hrest⟩ pre hp
      have h1 : P (f s e) := (exact s e hi h0).mpr he
      cases pre with
      | nil => exact h0
      | cons d pre =>
        obtain ⟨rfl, htail⟩ := List.cons_prefix_cons.mp hp
        exact (ih (keep s d hi) h1).mpr hrest pre htail

end Cardwar.Run
