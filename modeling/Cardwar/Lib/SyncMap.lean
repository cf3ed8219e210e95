import Mathlib

/-!
# Maps with atomic operations

A finite map and the operations of a concurrent one: load, store, delete and
the two compound operations, each of which is a single atomic step. Two maps
with the same loads are equal, so the order in which entries went in is not
part of a map.
-/

namespace Cardwar

def SyncMap (K V : Type) := Finmap fun _ : K => V

namespace SyncMap

variable {K V : Type} [DecidableEq K]

instance : EmptyCollection (SyncMap K V) :=
  inferInstanceAs (EmptyCollection (Finmap fun _ : K => V))

instance [DecidableEq V] : DecidableEq (SyncMap K V) :=
  inferInstanceAs (DecidableEq (Finmap fun _ : K => V))

def load (m : SyncMap K V) (k : K) : Option V := Finmap.lookup k m

def store (m : SyncMap K V) (k : K) (v : V) : SyncMap K V := Finmap.insert k v m

def delete (m : SyncMap K V) (k : K) : SyncMap K V := Finmap.erase k m

def keys (m : SyncMap K V) : Finset K := Finmap.keys m

def mapVal {W : Type} (f : V → W) (m : SyncMap K V) : SyncMap K W where
  entries := m.entries.map (Sigma.map id fun _ => f)
  nodupKeys := by
    have hkeys : (m.entries.map (Sigma.map id fun _ => f) : Multiset (Σ _ : K, W)).keys =
        m.entries.keys := Multiset.map_map _ _ _
    exact Multiset.nodup_keys.mp (hkeys ▸ m.nodupKeys.nodup_keys)

def filterKeys (p : K → Prop) [DecidablePred p] (m : SyncMap K V) : SyncMap K V where
  entries := m.entries.filter fun x => p x.1
  nodupKeys := by
    have hle : (m.entries.filter fun x => p x.1).keys ≤ m.entries.keys :=
      Multiset.map_le_map (Multiset.filter_le _ _)
    exact Multiset.nodup_keys.mp (Multiset.nodup_of_le hle m.nodupKeys.nodup_keys)

def storeAll (m n : SyncMap K V) : SyncMap K V := Finmap.union n m

/-- The value now at the key, and the map that holds it. -/
def loadOrStore (m : SyncMap K V) (k : K) (v : V) : V × SyncMap K V :=
  match m.load k with
  | some w => (w, m)
  | none => (v, m.store k v)

def loadAndDelete (m : SyncMap K V) (k : K) : Option V × SyncMap K V := (m.load k, m.delete k)

@[ext] theorem ext {m n : SyncMap K V} (h : ∀ k, m.load k = n.load k) : m = n :=
  Finmap.ext_lookup h

@[simp] theorem load_empty (k : K) : (∅ : SyncMap K V).load k = none := Finmap.lookup_empty k

theorem load_store (m : SyncMap K V) (k j : K) (v : V) :
    (m.store k v).load j = if j = k then some v else m.load j := by
  split
  next h => exact h ▸ Finmap.lookup_insert m
  next h => exact Finmap.lookup_insert_of_ne m h

@[simp] theorem load_store_self (m : SyncMap K V) (k : K) (v : V) : (m.store k v).load k = some v :=
  Finmap.lookup_insert m

@[simp] theorem load_store_ne (m : SyncMap K V) {k j : K} (v : V) (h : j ≠ k) :
    (m.store k v).load j = m.load j := Finmap.lookup_insert_of_ne m h

@[simp] theorem mem_keys (m : SyncMap K V) (k : K) : k ∈ m.keys ↔ (m.load k).isSome :=
  Finmap.mem_keys.trans Finmap.lookup_isSome.symm

-- Without it a finite key type would be searched key by key.
instance (m : SyncMap K V) (P : K → Prop) [DecidablePred P] : Decidable (∀ k ∈ m.keys, P k) :=
  Finset.decidableDforallFinset

theorem load_delete (m : SyncMap K V) (k j : K) :
    (m.delete k).load j = if j = k then none else m.load j := by
  split
  next h => exact h ▸ Finmap.lookup_erase k m
  next h => exact Finmap.lookup_erase_ne h

theorem of_load_delete {m : SyncMap K V} (h : (m.delete k).load j = some v) :
    j ≠ k ∧ m.load j = some v := by
  rw [load_delete] at h
  split at h
  next => cases h
  next hne => exact ⟨hne, h⟩

@[simp] theorem load_delete_self (m : SyncMap K V) (k : K) : (m.delete k).load k = none :=
  Finmap.lookup_erase k m

@[simp] theorem load_delete_ne (m : SyncMap K V) {k j : K} (h : j ≠ k) :
    (m.delete k).load j = m.load j := Finmap.lookup_erase_ne h

section Others

-- A key changes whose values, old and new, are not of interest.
variable {m : SyncMap K V} {P : V → Prop}

theorem load_store_iff (hold : ∀ old, m.load k = some old → ¬P old) (hnew : ¬P w) (j : K)
    (v : V) (hv : P v) :
    (m.store k w).load j = some v ↔ m.load j = some v := by
  rw [load_store]
  split
  next hj =>
    subst hj
    constructor
    · rintro ⟨⟩
      exact absurd hv hnew
    · exact fun h => absurd hv (hold v h)
  next => rfl

theorem load_delete_iff (hold : ∀ old, m.load k = some old → ¬P old) (j : K) (v : V) (hv : P v) :
    (m.delete k).load j = some v ↔ m.load j = some v := by
  rw [load_delete]
  split
  next hj =>
    subst hj
    constructor
    · rintro ⟨⟩
    · exact fun h => absurd hv (hold v h)
  next => rfl

end Others

@[simp] theorem load_mapVal {W : Type} (f : V → W) (m : SyncMap K V) (k : K) :
    (m.mapVal f).load k = (m.load k).map f := by
  refine Finmap.induction_on m fun l => ?_
  have hnd : (l.entries.map (Sigma.map id fun _ => f) : List (Σ _ : K, W)).NodupKeys :=
    (mapVal f l.toFinmap).nodupKeys
  exact (Finmap.lookup_toFinmap k ⟨_, hnd⟩).trans (List.dlookup_map₂ k)

@[simp] theorem load_filterKeys (p : K → Prop) [DecidablePred p] (m : SyncMap K V) (k : K) :
    (m.filterKeys p).load k = if p k then m.load k else none := by
  refine Option.ext fun v => ?_
  have hmem : (m.filterKeys p).load k = some v ↔ m.load k = some v ∧ p k :=
    Finmap.lookup_eq_some_iff.trans
      (Multiset.mem_filter.trans (and_congr_left' Finmap.lookup_eq_some_iff.symm))
  rw [hmem]
  split
  next h => exact and_iff_left h
  next h => simp [h]

theorem load_storeAll (m n : SyncMap K V) (k : K) :
    (m.storeAll n).load k = (n.load k).or (m.load k) := by
  cases hn : n.load k with
  | none => exact Finmap.lookup_union_right (Finmap.lookup_eq_none.mp hn)
  | some v => exact (Finmap.lookup_union_left (Finmap.mem_of_lookup_eq_some hn)).trans hn

theorem store_inj (m : SyncMap K V) (k : K) {v w : V} : m.store k v = m.store k w ↔ v = w := by
  refine ⟨fun h => ?_, fun h => h ▸ rfl⟩
  have hload : (m.store k v).load k = (m.store k w).load k := by rw [h]
  simpa using hload

theorem store_eq_self (m : SyncMap K V) {k : K} {v : V} : m.store k v = m ↔ m.load k = some v := by
  refine ⟨fun h => h ▸ load_store_self m k v, fun h => ext fun j => ?_⟩
  rw [load_store]
  split
  next hj => exact hj ▸ h.symm
  next => rfl

@[simp] theorem loadOrStore_fst (m : SyncMap K V) (k : K) (v : V) :
    (m.loadOrStore k v).1 = (m.load k).getD v := by
  unfold loadOrStore
  split
  next h => simp [h]
  next h => simp [h]

theorem load_loadOrStore (m : SyncMap K V) (k : K) (v : V) :
    (m.loadOrStore k v).2.load k = some (m.loadOrStore k v).1 := by
  unfold loadOrStore
  split
  next h => exact h
  next => exact load_store_self m k v

@[simp] theorem store_loadOrStore (m : SyncMap K V) (k : K) (v w : V) :
    (m.loadOrStore k v).2.store k w = m.store k w := by
  unfold loadOrStore
  split
  next => rfl
  next => exact Finmap.insert_insert m

theorem store_delete (m : SyncMap K V) {k : K} {v : V} (h : m.load k = some v) :
    (m.delete k).store k v = m := by
  refine ext fun j => ?_
  rw [load_store]
  split
  next hj => exact hj ▸ h.symm
  next hj => exact load_delete_ne m hj

theorem delete_of_load_none (m : SyncMap K V) {k : K} (h : m.load k = none) : m.delete k = m := by
  refine ext fun j => ?_
  rw [load_delete]
  split
  next hj => exact hj ▸ h.symm
  next => rfl

theorem foldl_store_eq {m n : SyncMap K V} {entries : List (K × V)}
    (hload : ∀ e ∈ entries, n.load e.1 = some e.2)
    (h : ∀ k, k ∈ entries.map Prod.fst ∨ m.load k = n.load k) :
    entries.foldl (fun m e => m.store e.1 e.2) m = n := by
  induction entries generalizing m with
  | nil => exact ext fun k => (h k).resolve_left List.not_mem_nil
  | cons e entries ih =>
    obtain ⟨he, hload⟩ := List.forall_mem_cons.mp hload
    refine ih hload fun k => ?_
    rw [load_store]
    split
    next hk => exact .inr (hk ▸ he.symm)
    next hk => exact (h k).imp_left fun hmem => (List.mem_cons.mp hmem).resolve_left hk

def countVal (m : SyncMap K V) (P : V → Prop) [DecidablePred P] : Nat :=
  (m.keys.filter fun k => ∃ v ∈ m.load k, P v).card

section CountVal

variable (P : V → Prop) [DecidablePred P]

@[simp] theorem countVal_empty : (∅ : SyncMap K V).countVal P = 0 := by
  rw [countVal, Finset.card_eq_zero, Finset.filter_eq_empty_iff]
  intro k hk
  simp at hk

theorem countVal_store (m : SyncMap K V) {k : K} (v : V) (h : m.load k = none) :
    (m.store k v).countVal P = m.countVal P + if P v then 1 else 0 := by
  have hkeys : (m.store k v).keys = insert k m.keys := by
    ext j
    rw [mem_keys, Finset.mem_insert, mem_keys, load_store]
    split <;> simp [*]
  have hnot : k ∉ m.keys := by simp [h]
  -- The other keys have the values they had.
  have hrest : m.keys.filter (fun j => ∃ w ∈ (m.store k v).load j, P w) =
      m.keys.filter fun j => ∃ w ∈ m.load j, P w := by
    refine Finset.filter_congr fun j hj => ?_
    rw [load_store_ne m v (ne_of_mem_of_not_mem hj hnot)]
  rw [countVal, hkeys, Finset.filter_insert, hrest]
  by_cases hv : P v
  · have hin : ∃ w ∈ (m.store k v).load k, P w := ⟨v, load_store_self m k v, hv⟩
    rw [if_pos hin, if_pos hv, Finset.card_insert_of_notMem fun hk =>
      hnot (Finset.mem_filter.mp hk).1]
    rfl
  · have hout : ¬ ∃ w ∈ (m.store k v).load k, P w := by simpa using hv
    rw [if_neg hout, if_neg hv]
    rfl

theorem countVal_delete (m : SyncMap K V) {k : K} {v : V} (h : m.load k = some v) :
    (m.delete k).countVal P + (if P v then 1 else 0) = m.countVal P := by
  have hstore := countVal_store P (m.delete k) v (load_delete_self m k)
  rw [store_delete m h] at hstore
  exact hstore.symm

end CountVal

end SyncMap

end Cardwar
