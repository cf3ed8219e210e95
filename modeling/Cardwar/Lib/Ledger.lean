import Mathlib

/-!
# What became of each arrival

Items of several kinds arrive, batches take the oldest that wait, and single
items are removed. Who waits is not stored: it is whoever arrived and was
neither taken nor removed, in the order of arrival.
-/

namespace Cardwar

structure Ledger (α : Type) where
  arrived : List α := []
  taken : List (List α) := []
  removed : List α := []

namespace Ledger

variable {α κ : Type} [DecidableEq α] [DecidableEq κ] (kind : α → κ)

def Waits (b : Ledger α) (k : κ) (a : α) : Prop := kind a = k ∧ a ∉ b.taken.flatten ∧ a ∉ b.removed

instance (b : Ledger α) (k : κ) (a : α) : Decidable (b.Waits kind k a) := by
  unfold Waits
  infer_instance

def waiting (b : Ledger α) (k : κ) : List α := b.arrived.filter fun a => b.Waits kind k a

def arrive (b : Ledger α) (a : α) : Ledger α := { b with arrived := b.arrived ++ [a] }

def take (b : Ledger α) (k : κ) (n : Nat) : Ledger α :=
  { b with taken := b.taken ++ [(b.waiting kind k).take n] }

def remove (b : Ledger α) (a : α) : Ledger α := { b with removed := b.removed ++ [a] }

/-- Items are distinct, and only what arrived is gone, once. -/
structure Sound (b : Ledger α) : Prop where
  distinct : b.arrived.Nodup
  once : (b.taken.flatten ++ b.removed).Nodup
  known : ∀ a ∈ b.taken.flatten ++ b.removed, a ∈ b.arrived

theorem mem_waiting {b : Ledger α} {k : κ} {a : α} :
    a ∈ b.waiting kind k ↔ a ∈ b.arrived ∧ b.Waits kind k a := by
  simp [waiting]

omit [DecidableEq α] in
theorem sound_empty : Sound ({} : Ledger α) := ⟨List.nodup_nil, List.nodup_nil, by simp⟩

theorem Sound.waiting_nodup {b : Ledger α} (h : Sound b) (k : κ) : (b.waiting kind k).Nodup :=
  h.distinct.filter _

theorem waiting_arrive {b : Ledger α} (h : Sound b) {a : α} (ha : a ∉ b.arrived) (k : κ) :
    (b.arrive a).waiting kind k = if kind a = k then b.waiting kind k ++ [a]
      else b.waiting kind k := by
  have hgone : a ∉ b.taken.flatten ∧ a ∉ b.removed :=
    ⟨fun hm => ha (h.known a (List.mem_append_left _ hm)),
      fun hm => ha (h.known a (List.mem_append_right _ hm))⟩
  have hnew : b.Waits kind k a ↔ kind a = k := and_iff_left hgone
  have hsplit :
      (b.arrive a).waiting kind k = b.waiting kind k ++ [a].filter fun a => b.Waits kind k a :=
    List.filter_append ..
  rw [hsplit]
  split
  next hk => simp [hnew, hk]
  next hk => simp [hnew, hk]

theorem waiting_of_waits {b b' : Ledger α} {k : κ} {P : α → Prop} [DecidablePred P]
    (harrived : b'.arrived = b.arrived) (h : ∀ a, b'.Waits kind k a ↔ b.Waits kind k a ∧ P a) :
    b'.waiting kind k = (b.waiting kind k).filter P := by
  rw [waiting, waiting, harrived, List.filter_filter]
  refine List.filter_congr fun a _ => ?_
  simp [h, and_comm]

theorem filter_notMem_take {l : List α} (h : l.Nodup) (n : Nat) :
    l.filter (· ∉ l.take n) = l.drop n := by
  have hdisjoint : ∀ a ∈ l.drop n, a ∉ l.take n := by
    intro a hdrop htake
    rw [← List.take_append_drop n l] at h
    exact (List.nodup_append.mp h).2.2 a htake a hdrop rfl
  calc l.filter (· ∉ l.take n)
      = (l.take n ++ l.drop n).filter (· ∉ l.take n) := by rw [List.take_append_drop]
    _ = (l.take n).filter (· ∉ l.take n) ++ (l.drop n).filter (· ∉ l.take n) :=
      List.filter_append ..
    _ = [] ++ l.drop n := by
        congr 1
        · exact List.filter_eq_nil_iff.mpr fun a ha => by simpa using ha
        · exact List.filter_eq_self.mpr fun a ha => by simpa using hdisjoint a ha

theorem waits_take (b : Ledger α) (j k : κ) (n : Nat) (a : α) :
    (b.take kind k n).Waits kind j a ↔ b.Waits kind j a ∧ a ∉ (b.waiting kind k).take n := by
  simp only [Waits, take, List.flatten_append, List.flatten_singleton, List.mem_append]
  tauto

theorem waiting_take_self {b : Ledger α} (h : Sound b) (k : κ) (n : Nat) :
    (b.take kind k n).waiting kind k = (b.waiting kind k).drop n := by
  rw [← filter_notMem_take (h.waiting_nodup kind k) n]
  exact waiting_of_waits kind rfl (waits_take kind b k k n)

theorem waiting_take_ne {b : Ledger α} {j k : κ} (hj : j ≠ k) (n : Nat) :
    (b.take kind k n).waiting kind j = b.waiting kind j := by
  have hfilter : (b.take kind k n).waiting kind j =
      (b.waiting kind j).filter (· ∉ (b.waiting kind k).take n) :=
    waiting_of_waits kind rfl (waits_take kind b j k n)
  rw [hfilter]
  refine List.filter_eq_self.mpr fun a ha => ?_
  -- Only items of the other kind are taken.
  have hkind : kind a = j := ((mem_waiting kind).mp ha).2.1
  have hnot : a ∉ (b.waiting kind k).take n := fun hm =>
    hj (hkind.symm.trans ((mem_waiting kind).mp (List.mem_of_mem_take hm)).2.1)
  simpa using hnot

theorem waiting_remove (b : Ledger α) (a : α) (k : κ) :
    (b.remove a).waiting kind k = (b.waiting kind k).filter (· ≠ a) := by
  refine waiting_of_waits kind rfl fun c => ?_
  simp only [Waits, remove, List.mem_append, List.mem_singleton]
  tauto

theorem waiting_remove_ne (b : Ledger α) {a : α} {k : κ} (h : kind a ≠ k) :
    (b.remove a).waiting kind k = b.waiting kind k := by
  rw [waiting_remove]
  refine List.filter_eq_self.mpr fun c hc => ?_
  have hkind : kind c = k := ((mem_waiting kind).mp hc).2.1
  have hne : c ≠ a := fun hca => h (hca ▸ hkind)
  simpa using hne

omit [DecidableEq α] in
theorem Sound.arrive {b : Ledger α} (h : Sound b) {a : α} (ha : a ∉ b.arrived) :
    Sound (b.arrive a) := by
  refine ⟨?_, h.once, fun c hc => List.mem_append_left _ (h.known c hc)⟩
  rw [Ledger.arrive, List.nodup_append_comm, List.singleton_append, List.nodup_cons]
  exact ⟨ha, h.distinct⟩

theorem Sound.take {b : Ledger α} (h : Sound b) (k : κ) (n : Nat) : Sound (b.take kind k n) := by
  have hwaits : ∀ a ∈ (b.waiting kind k).take n, a ∈ b.arrived ∧ b.Waits kind k a :=
    fun a ha => (mem_waiting kind).mp (List.mem_of_mem_take ha)
  -- The new batch stands between what was taken before and what was removed.
  have hflat : (b.take kind k n).taken.flatten ++ b.removed =
      b.taken.flatten ++ ((b.waiting kind k).take n ++ b.removed) := by simp [Ledger.take]
  obtain ⟨htaken, hremoved, hdisjoint⟩ := List.nodup_append.mp h.once
  refine ⟨h.distinct, ?_, fun a ha => ?_⟩
  · show ((b.take kind k n).taken.flatten ++ b.removed).Nodup
    rw [hflat]
    refine List.nodup_append.mpr ⟨htaken, List.nodup_append.mpr ⟨?_, hremoved, ?_⟩, ?_⟩
    · exact (h.waiting_nodup kind k).sublist (List.take_sublist n _)
    · rintro a ha c hc rfl
      exact (hwaits a ha).2.2.2 hc
    · rintro a ha c hc rfl
      rcases List.mem_append.mp hc with hnew | hold
      · exact (hwaits a hnew).2.2.1 ha
      · exact hdisjoint a ha a hold rfl
  · have ha : a ∈ b.taken.flatten ++ ((b.waiting kind k).take n ++ b.removed) := hflat ▸ ha
    rcases List.mem_append.mp ha with hold | hrest
    · exact h.known a (List.mem_append_left _ hold)
    · rcases List.mem_append.mp hrest with hnew | hold
      · exact (hwaits a hnew).1
      · exact h.known a (List.mem_append_right _ hold)

theorem Sound.remove {b : Ledger α} (h : Sound b) {a : α} {k : κ} (ha : a ∈ b.waiting kind k) :
    Sound (b.remove a) := by
  obtain ⟨harrived, -, htaken, hremoved⟩ := (mem_waiting kind).mp ha
  have hflat : b.taken.flatten ++ (b.removed ++ [a]) = (b.taken.flatten ++ b.removed) ++ [a] := by
    simp
  have hnot : a ∉ b.taken.flatten ++ b.removed :=
    fun hm => (List.mem_append.mp hm).elim htaken hremoved
  refine ⟨h.distinct, ?_, fun c hc => ?_⟩
  · show (b.taken.flatten ++ (b.removed ++ [a])).Nodup
    rw [hflat, List.nodup_append_comm, List.singleton_append, List.nodup_cons]
    exact ⟨hnot, h.once⟩
  · have hc : c ∈ (b.taken.flatten ++ b.removed) ++ [a] := hflat ▸ hc
    rcases List.mem_append.mp hc with hold | hnew
    · exact h.known c hold
    · exact List.mem_singleton.mp hnew ▸ harrived

def places (b : Ledger α) (a : α) : Nat :=
  (b.waiting kind (kind a)).count a + (b.taken.map (·.count a)).sum + b.removed.count a

theorem Sound.places_eq_one {b : Ledger α} (h : Sound b) {a : α} (ha : a ∈ b.arrived) :
    b.places kind a = 1 := by
  have hcount :
      (b.taken.map (·.count a)).sum + b.removed.count a =
        (b.taken.flatten ++ b.removed).count a := by
    rw [List.count_append, List.count_flatten]
  rw [places, Nat.add_assoc, hcount]
  by_cases hgone : a ∈ b.taken.flatten ++ b.removed
  · have hnot : a ∉ b.waiting kind (kind a) := fun hw => by
      obtain ⟨-, -, htaken, hremoved⟩ := (mem_waiting kind).mp hw
      exact (List.mem_append.mp hgone).elim htaken hremoved
    rw [List.count_eq_zero.mpr hnot, List.count_eq_one_of_mem h.once hgone]
  · have hwaits : a ∈ b.waiting kind (kind a) := by
      rw [List.mem_append, not_or] at hgone
      exact (mem_waiting kind).mpr ⟨ha, rfl, hgone⟩
    rw [List.count_eq_zero.mpr hgone, List.count_eq_one_of_mem (h.waiting_nodup kind _) hwaits]

end Ledger

end Cardwar
