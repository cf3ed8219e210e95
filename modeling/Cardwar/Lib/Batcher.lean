import Mathlib

/-!
# Batches from queues

Items wait in one queue for each kind, in order of arrival; a batch takes the
oldest of one kind. Both are atomic here. `places` counts where an item is:
in the queue of its kind or in a batch.
-/

namespace Cardwar

structure Batcher (α κ : Type) where
  waiting : κ → List α
  batches : List (List α)
  entered : List α

namespace Batcher

variable {α κ : Type}

def empty : Batcher α κ := ⟨fun _ => [], [], []⟩

variable [DecidableEq κ] (kind : α → κ)

def enter (b : Batcher α κ) (a : α) : Batcher α κ :=
  { b with
    waiting := Function.update b.waiting (kind a) (b.waiting (kind a) ++ [a])
    entered := b.entered ++ [a] }

def form (b : Batcher α κ) (k : κ) (n : Nat) : Batcher α κ :=
  { b with
    waiting := Function.update b.waiting k ((b.waiting k).drop n)
    batches := b.batches ++ [(b.waiting k).take n] }

@[simp] theorem waiting_enter_self (b : Batcher α κ) (a : α) :
    (b.enter kind a).waiting (kind a) = b.waiting (kind a) ++ [a] := Function.update_self ..

@[simp] theorem waiting_enter_ne (b : Batcher α κ) (a : α) (h : k ≠ kind a) :
    (b.enter kind a).waiting k = b.waiting k := Function.update_of_ne h ..

@[simp] theorem waiting_form_self (b : Batcher α κ) (k : κ) (n : Nat) :
    (b.form k n).waiting k = (b.waiting k).drop n := Function.update_self ..

@[simp] theorem waiting_form_ne (b : Batcher α κ) (n : Nat) (h : j ≠ k) :
    (b.form k n).waiting j = b.waiting j := Function.update_of_ne h ..

variable [DecidableEq α]

def places (b : Batcher α κ) (a : α) : Nat :=
  (b.waiting (kind a)).count a + (b.batches.map (·.count a)).sum

-- What every reachable batcher has: nothing is lost, nothing is there twice,
-- and each queue holds its own kind only.
structure Conserves (b : Batcher α κ) : Prop where
  places : ∀ a, b.places kind a = b.entered.count a
  kinds : ∀ k, ∀ a ∈ b.waiting k, kind a = k

omit [DecidableEq κ] in
theorem conserves_empty : Conserves kind (empty : Batcher α κ) :=
  ⟨fun _ => rfl, fun _ _ h => by cases h⟩

theorem Conserves.enter {b : Batcher α κ} (h : Conserves kind b) (a : α) :
    Conserves kind (b.enter kind a) := by
  refine ⟨fun c => ?_, fun k c hc => ?_⟩
  · have hp := h.places c
    have hentered : (b.enter kind a).entered.count c = b.entered.count c + [a].count c :=
      List.count_append
    rw [hentered]
    simp only [Batcher.places] at hp ⊢
    by_cases hk : kind c = kind a
    · rw [hk] at hp ⊢
      rw [waiting_enter_self, List.count_append]
      simp only [Batcher.enter]
      omega
    · have hne : a ≠ c := fun heq => hk (heq ▸ rfl)
      rw [waiting_enter_ne kind b a hk, List.count_singleton, beq_false_of_ne hne]
      simpa [Batcher.enter] using hp
  · by_cases hk : k = kind a
    · subst hk
      simp only [waiting_enter_self, List.mem_append, List.mem_singleton] at hc
      exact hc.elim (h.kinds _ c) fun hca => hca ▸ rfl
    · rw [waiting_enter_ne kind b a hk] at hc
      exact h.kinds k c hc

theorem Conserves.form {b : Batcher α κ} (h : Conserves kind b) (k : κ) (n : Nat) :
    Conserves kind (b.form k n) := by
  refine ⟨fun c => ?_, fun j c hc => ?_⟩
  · have hp := h.places c
    have hsplit : (b.waiting k).count c =
        ((b.waiting k).take n).count c + ((b.waiting k).drop n).count c := by
      rw [← List.count_append, List.take_append_drop]
    have hbatches : ((b.form k n).batches.map (·.count c)).sum =
        (b.batches.map (·.count c)).sum + ((b.waiting k).take n).count c := by
      simp [Batcher.form]
    simp only [Batcher.places, hbatches] at hp ⊢
    show _ = b.entered.count c
    by_cases hk : kind c = k
    · subst hk
      rw [waiting_form_self]
      omega
    · -- An item of another kind was not in the queue the batch came from.
      have hnot : c ∉ b.waiting k := fun hc => hk (h.kinds k c hc)
      have hzero : (b.waiting k).count c = 0 := List.count_eq_zero.mpr hnot
      rw [waiting_form_ne b n hk]
      omega
  · by_cases hj : j = k
    · subst hj
      rw [waiting_form_self] at hc
      exact h.kinds j c (List.mem_of_mem_drop hc)
    · rw [waiting_form_ne b n hj] at hc
      exact h.kinds j c hc

end Batcher

end Cardwar
