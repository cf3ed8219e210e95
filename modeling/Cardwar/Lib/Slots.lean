import Mathlib

/-!
# Slots

A component that serves several parties keeps one slot for each: a party that
arrives gets the next position, and a step of the party at `i` replaces slot
`i`. A slot found after such a change is the new one or was there before.
-/

namespace Cardwar.Slots

variable {α β : Type} {l : List α}

theorem getElem?_snoc (h : (l ++ [a])[i]? = some x) : l[i]? = some x ∨ i = l.length ∧ x = a := by
  rw [List.getElem?_append] at h
  split at h
  next => exact .inl h
  next hi =>
    obtain ⟨hlt, hx⟩ := List.getElem?_eq_some_iff.mp h
    have hi : i = l.length := by
      rw [List.length_singleton] at hlt
      omega
    exact .inr ⟨hi, by simpa [hi] using hx.symm⟩

theorem getElem?_of_set (h : (l.set i a)[j]? = some x) :
    j = i ∧ x = a ∨ j ≠ i ∧ l[j]? = some x := by
  rw [List.getElem?_set] at h
  split at h
  next hij =>
    split at h
    · exact .inl ⟨hij.symm, (Option.some.inj h).symm⟩
    · cases h
  next hij => exact .inr ⟨fun heq => hij heq.symm, h⟩

theorem getElem?_set_of (hi : l[i]? = some a) (b : α) : (l.set i b)[i]? = some b :=
  List.getElem?_set_self (List.getElem?_eq_some_iff.mp hi).1

theorem map_set_eq {f : α → β} (hi : l[i]? = some a) (hf : f b = f a) :
    (l.set i b).map f = l.map f := by
  obtain ⟨hlt, rfl⟩ := List.getElem?_eq_some_iff.mp hi
  have hlt' : i < (l.map f).length := by rwa [List.length_map]
  rw [List.map_set, hf, ← List.getElem_map f (h := hlt'), List.set_getElem_self]

/-- Slots that differ in `f`: after a step at `i` a slot is the new one, or an old
one other than the one at `i`. -/
theorem mem_of_set {f : α → β} (hnodup : (l.map f).Nodup) (hi : l[i]? = some a)
    (h : x ∈ l.set i b) :
    x = b ∨ x ∈ l ∧ f x ≠ f a := by
  obtain ⟨j, hj⟩ := List.mem_iff_getElem?.mp h
  rcases getElem?_of_set hj with ⟨-, rfl⟩ | ⟨hne, hj⟩
  · exact .inl rfl
  · refine .inr ⟨List.mem_of_getElem? hj, fun heq => hne ?_⟩
    have hlt : j < (l.map f).length := by
      rw [List.length_map]
      exact (List.getElem?_eq_some_iff.mp hj).1
    refine (List.getElem?_inj hlt hnodup).mp ?_
    rw [List.getElem?_map, List.getElem?_map, hj, hi, Option.map_some, Option.map_some, heq]

theorem mem_or_mem_eraseIdx (hi : l[i]? = some a) (h : x ∈ l) : x = a ∨ x ∈ l.eraseIdx i := by
  obtain ⟨hlt, rfl⟩ := List.getElem?_eq_some_iff.mp hi
  exact List.mem_cons.mp ((List.getElem_cons_eraseIdx_perm hlt).mem_iff.mpr h)

theorem countP_eraseIdx (hi : l[i]? = some a) {f : α → Bool} (hf : f a = true) :
    (l.eraseIdx i).countP f + 1 = l.countP f := by
  obtain ⟨hlt, rfl⟩ := List.getElem?_eq_some_iff.mp hi
  rw [← (List.getElem_cons_eraseIdx_perm hlt).countP_eq, List.countP_cons_of_pos hf]

theorem filter_eraseIdx_of_neg (hi : l[i]? = some a) {f : α → Bool} (hf : f a = false) :
    (l.eraseIdx i).filter f = l.filter f := by
  obtain ⟨hlt, rfl⟩ := List.getElem?_eq_some_iff.mp hi
  calc (l.eraseIdx i).filter f = (l.take i).filter f ++ (l.drop (i + 1)).filter f := by
        rw [List.eraseIdx_eq_take_drop_succ, List.filter_append]
    _ = (l.take i ++ l[i] :: l.drop (i + 1)).filter f := by
        rw [List.filter_append, List.filter_cons_of_neg (by simp [hf])]
    _ = l.filter f := by rw [List.getElem_cons_drop, List.take_append_drop]

theorem filter_eraseIdx_of_single (hi : l[i]? = some a) {f : α → Bool} (hf : f a = true)
    (hl : l.filter f = [b]) : a = b ∧ (l.eraseIdx i).filter f = [] := by
  have hmem : a ∈ l.filter f := List.mem_filter.mpr ⟨List.mem_of_getElem? hi, hf⟩
  have hcount := countP_eraseIdx hi hf
  rw [List.countP_eq_length_filter, List.countP_eq_length_filter, hl, List.length_singleton]
    at hcount
  rw [hl] at hmem
  exact ⟨List.mem_singleton.mp hmem, List.eq_nil_of_length_eq_zero (by omega)⟩

theorem countP_filter_lt (hx : x ∈ l) {f q : α → Bool} (hf : f x = true) (hq : q x = false) :
    (l.filter q).countP f < l.countP f := by
  obtain ⟨i, hi⟩ := List.mem_iff_getElem?.mp hx
  have hcount := countP_eraseIdx hi hf
  have hle : (l.filter q).countP f ≤ (l.eraseIdx i).countP f := by
    rw [← filter_eraseIdx_of_neg hi hq]
    exact List.filter_sublist.countP_le
  omega

end Cardwar.Slots
