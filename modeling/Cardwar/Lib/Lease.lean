import Mathlib

/-!
# Leases

A lease has an owner and a mark. A claim takes it whoever holds it and clears
the mark. A stamp sets the mark, but only the owner's stamp counts; a lease
nobody holds goes to the first who stamps it. Doing a list of operations a
second time changes nothing (`applyAll_idem`): what comes after the last claim
decides, and a stamp that counted counts again or the lease has a holder by then.
-/

namespace Cardwar

structure Lease (κ τ : Type) where
  owner : κ
  mark : τ
  deriving DecidableEq

namespace Lease

inductive Op (κ τ : Type)
  | claim (k : κ)
  | stamp (k : κ) (t : τ)

variable {κ τ : Type} [DecidableEq κ] [DecidableEq τ] (free : κ) (unset : τ)

/-- A stamp with the unset mark takes a free lease and leaves the mark. -/
def apply (l : Lease κ τ) : Op κ τ → Lease κ τ
  | .claim k => ⟨k, unset⟩
  | .stamp k t =>
    if l.owner ≠ free ∧ l.owner ≠ k then l
    else ⟨if l.owner = free then k else l.owner, if t ≠ unset then t else l.mark⟩

def applyAll (l : Lease κ τ) (ops : List (Op κ τ)) : Lease κ τ := ops.foldl (apply free unset) l

variable {free unset}

theorem apply_stamp {l : Lease κ τ} (h : ¬ (l.owner ≠ free ∧ l.owner ≠ k)) (t : τ) :
    apply free unset l (.stamp k t) = ⟨k, if t ≠ unset then t else l.mark⟩ := by
  have hk : (if l.owner = free then k else l.owner) = k := by
    split
    · rfl
    · tauto
  rw [apply, if_neg h, hk]

@[simp] theorem applyAll_cons (l : Lease κ τ) (op : Op κ τ) (ops : List (Op κ τ)) :
    applyAll free unset l (op :: ops) = applyAll free unset (apply free unset l op) ops := rfl

@[simp] theorem applyAll_append (l : Lease κ τ) (ops ops' : List (Op κ τ)) :
    applyAll free unset l (ops ++ ops') = applyAll free unset (applyAll free unset l ops) ops' :=
  List.foldl_append

theorem applyAll_claimed {ops : List (Op κ τ)} (h : .claim k ∈ ops) (l l' : Lease κ τ) :
    applyAll free unset l ops = applyAll free unset l' ops := by
  induction ops generalizing l l' with
  | nil => cases h
  | cons op ops ih =>
    rcases List.mem_cons.mp h with rfl | h
    · rfl
    · exact ih h _ _

theorem owner_stamps {ops : List (Op κ τ)} (h : ∀ k, .claim k ∉ ops) {l : Lease κ τ}
    (hl : l.owner ≠ free) :
    (applyAll free unset l ops).owner = l.owner := by
  induction ops generalizing l with
  | nil => rfl
  | cons op ops ih =>
    cases op with
    | claim k => exact absurd List.mem_cons_self (h k)
    | stamp k t =>
      have hown : (apply free unset l (.stamp k t)).owner = l.owner := by
        simp only [apply, if_neg hl]
        split <;> rfl
      have hrest : ∀ k, .claim k ∉ ops := fun k hk => h k (List.mem_cons_of_mem _ hk)
      exact (ih hrest (hown ▸ hl)).trans hown

/-- A stamp repeated after other stamps: it does nothing, or leads back to where
it led the first time. -/
theorem stamp_again (free k : κ) (unset t : τ) (l : Lease κ τ) {ops : List (Op κ τ)}
    (h : ∀ k, .claim k ∉ ops) :
    let l' := apply free unset l (.stamp k t)
    let l'' := applyAll free unset l' ops
    apply free unset l'' (.stamp k t) = l'' ∨ apply free unset l'' (.stamp k t) = l' := by
  intro l' l''
  by_cases hstale'' : l''.owner ≠ free ∧ l''.owner ≠ k
  · exact .inl (if_pos hstale'')
  -- It counts after `ops`; then it counted before them.
  have hcounts : ¬ (l.owner ≠ free ∧ l.owner ≠ k) := by
    intro hstale
    have hl' : l' = l := if_pos hstale
    have hown : l''.owner = l.owner := hl' ▸ owner_stamps h (hl' ▸ hstale.1)
    exact hstale'' (hown ▸ hstale)
  have hl' : l' = ⟨k, if t ≠ unset then t else l.mark⟩ := apply_stamp hcounts t
  have hk : l''.owner = k := by
    by_cases hfree : k = free
    · subst hfree
      tauto
    · have hown : l'.owner = k := congrArg owner hl'
      exact (owner_stamps h (hown ▸ hfree)).trans hown
  rw [apply_stamp hstale'']
  by_cases ht : t = unset
  · left
    rw [if_neg (not_not_intro ht), ← hk]
  · right
    rw [hl', if_pos ht, if_pos ht]

theorem applyAll_idem (l : Lease κ τ) (ops : List (Op κ τ)) :
    applyAll free unset (applyAll free unset l ops) ops = applyAll free unset l ops := by
  induction ops generalizing l with
  | nil => rfl
  | cons op ops ih =>
    -- With `l'` the lease after the first operation and `l''` the one at the
    -- end: going on from `l'` or from `l''` ends in `l''`.
    simp only [applyAll_cons]
    cases op with
    | claim k => rfl
    | stamp k t =>
      by_cases hclaim : ∃ j, .claim j ∈ ops
      · obtain ⟨j, hj⟩ := hclaim
        exact applyAll_claimed hj _ _
      · rcases stamp_again free k unset t l (fun j hj => hclaim ⟨j, hj⟩) with hagain | hagain
        · rw [hagain]
          exact ih _
        · rw [hagain]

end Lease

end Cardwar
