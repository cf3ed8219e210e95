import Cardwar.Lib.SyncMap

/-!
# Stores with leases

A `LeaseService` is a key-value service by its calls: every key is put with a
lease and goes when its lease does, and a watch reports the changes of its keys.
What a client of such a service relies on is `LeaseService.Laws`. `LeasedStore`
is a store that meets them (`LeasedStore.laws`).
-/

namespace Cardwar

/-- `σ` are the states of the service, `L` its leases and `W` its watches. -/
structure LeaseService (σ L W K V : Type) where
  empty : σ
  /-- What is there for a key, and the lease it was put with. -/
  load : σ → K → Option (V × L)
  alive : σ → L → Bool
  Granted : σ → L → Prop
  grant : σ → L × σ
  /-- `none` if it is refused. -/
  put : σ → K → V → L → Option σ
  /-- The lease is revoked, or its time is over. -/
  drop : σ → L → σ
  range : σ → (K → Bool) → List (K × V)
  watch : σ → (K → Bool) → W
  /-- The watch was opened on these keys. -/
  Watches : W → (K → Bool) → σ → Prop
  /-- How many changes a watch has not reported. -/
  pending : W → σ → Nat
  /-- The watch after a response with `n + 1` changes. -/
  receive : W → σ → Nat → W

namespace LeaseService

inductive Moved (service : LeaseService σ L W K V) (s : σ) : σ → Prop
  | grant : Moved service s (service.grant s).2
  | put (hput : service.put s k v l = some s') : Moved service s s'
  | drop (l : L) : Moved service s (service.drop s l)

structure Laws [DecidableEq K] (service : LeaseService σ L W K V) : Prop where
  load_empty : ∀ k, service.load service.empty k = none
  granted_of_alive : ∀ s l, service.alive s l → service.Granted s l
  grant_new : ∀ s, ¬ service.Granted s (service.grant s).1
  load_grant : ∀ s k, service.load (service.grant s).2 k = service.load s k
  alive_grant : ∀ s l, service.alive (service.grant s).2 l ↔
    service.alive s l ∨ l = (service.grant s).1
  granted_grant : ∀ s l, service.Granted s l → service.Granted (service.grant s).2 l
  alive_of_put : ∀ s s' k v l, service.put s k v l = some s' → service.alive s l
  load_put : ∀ s s' k v l, service.put s k v l = some s' →
    ∀ k', service.load s' k' = if k' = k then some (v, l) else service.load s k'
  alive_put : ∀ s s' k v l, service.put s k v l = some s' →
    ∀ l', service.alive s' l' ↔ service.alive s l'
  granted_put : ∀ s s' k v l, service.put s k v l = some s' →
    ∀ l', service.Granted s l' → service.Granted s' l'
  load_drop : ∀ s l k v l', service.load (service.drop s l) k = some (v, l') ↔
    service.load s k = some (v, l') ∧ l' ≠ l
  alive_drop : ∀ s l l', service.alive (service.drop s l) l' ↔ service.alive s l' ∧ l' ≠ l
  granted_drop : ∀ s l l', service.Granted s l' → service.Granted (service.drop s l) l'
  mem_range : ∀ s p k v, (k, v) ∈ service.range s p ↔ p k ∧ ∃ l, service.load s k = some (v, l)
  nodup_range : ∀ s p, ((service.range s p).map Prod.fst).Nodup
  range_congr : ∀ s s' p, (∀ k, p k → service.load s k = service.load s' k) →
    service.range s p = service.range s' p
  watches_watch : ∀ s p, service.Watches (service.watch s p) p s
  watches_receive : ∀ w p s n, service.Watches w p s → n < service.pending w s →
    service.Watches (service.receive w s n) p s
  watches_moved : ∀ w p s s', service.Watches w p s → service.Moved s s' → service.Watches w p s'
  pending_receive : ∀ w s n, n < service.pending w s →
    service.pending (service.receive w s n) s = service.pending w s - (n + 1)
  pending_le : ∀ w s s', service.Moved s s' → service.pending w s ≤ service.pending w s'
  /-- No change of a watched key goes unreported. -/
  pending_lt : ∀ w p s s' k, service.Watches w p s → service.Moved s s' → p k →
    service.load s k ≠ service.load s' k → service.pending w s < service.pending w s'

end LeaseService

structure LeasedStore (K V : Type) [DecidableEq K] where
  kvs : SyncMap K (V × Nat)
  leases : Finset Nat
  granted : Nat
  /-- The keys that were changed. -/
  changes : Multiset K
  alive : ∀ k v l, kvs.load k = some (v, l) → l ∈ leases
  given : ∀ l ∈ leases, l < granted

namespace LeasedStore

section
variable {K V : Type} [DecidableEq K]

theorem empty_alive (k : K) (v : V) (l : Nat) (h : (∅ : SyncMap K (V × Nat)).load k = some (v, l)) :
    l ∈ (∅ : Finset Nat) := by
  rw [SyncMap.load_empty] at h
  cases h

def empty : LeasedStore K V := ⟨∅, ∅, 0, 0, empty_alive, by simp⟩

theorem grant_given (s : LeasedStore K V) : ∀ l ∈ insert s.granted s.leases, l < s.granted + 1 := by
  intro l hl
  rcases Finset.mem_insert.mp hl with rfl | hl
  · exact Nat.lt_succ_self _
  · exact Nat.lt_succ_of_lt (s.given l hl)

def grant (s : LeasedStore K V) : LeasedStore K V where
  kvs := s.kvs
  leases := insert s.granted s.leases
  granted := s.granted + 1
  changes := s.changes
  alive := fun k v l h => Finset.mem_insert_of_mem (s.alive k v l h)
  given := s.grant_given

theorem put_alive {s : LeasedStore K V} (h : lease ∈ s.leases) (key : K) (value : V) :
    ∀ k v l, (s.kvs.store key (value, lease)).load k = some (v, l) → l ∈ s.leases := by
  intro k v l hl
  rw [SyncMap.load_store] at hl
  split at hl
  · obtain ⟨-, rfl⟩ := Prod.mk.inj (Option.some.inj hl)
    exact h
  · exact s.alive k v l hl

def put (s : LeasedStore K V) (key : K) (value : V) (lease : Nat) : Option (LeasedStore K V) :=
  if h : lease ∈ s.leases then
    some ⟨s.kvs.store key (value, lease), s.leases, s.granted, key ::ₘ s.changes,
      put_alive h key value, s.given⟩
  else none

def Attached (s : LeasedStore K V) (lease : Nat) (k : K) : Prop := ∃ e ∈ s.kvs.load k, e.2 = lease

instance (s : LeasedStore K V) (lease : Nat) (k : K) : Decidable (s.Attached lease k) :=
  inferInstanceAs (Decidable (∃ e ∈ s.kvs.load k, e.2 = lease))

theorem drop_alive (s : LeasedStore K V) (lease : Nat) :
    ∀ k v l, (s.kvs.filterKeys fun k => ¬ s.Attached lease k).load k = some (v, l) →
      l ∈ s.leases.erase lease := by
  intro k v l hl
  rw [SyncMap.load_filterKeys] at hl
  split at hl
  next hfree => exact Finset.mem_erase.mpr ⟨fun heq => hfree ⟨_, hl, heq⟩, s.alive k v l hl⟩
  next => cases hl

def drop (s : LeasedStore K V) (lease : Nat) : LeasedStore K V where
  kvs := s.kvs.filterKeys fun k => ¬ s.Attached lease k
  leases := s.leases.erase lease
  granted := s.granted
  changes := s.changes + (s.kvs.keys.filter (s.Attached lease)).val
  alive := s.drop_alive lease
  given := fun l hl => s.given l (Finset.mem_of_mem_erase hl)

theorem put_eq_some {s s' : LeasedStore K V} (h : s.put key value lease = some s') :
    lease ∈ s.leases ∧ s'.kvs = s.kvs.store key (value, lease) ∧ s'.leases = s.leases ∧
      s'.granted = s.granted ∧ s'.changes = key ::ₘ s.changes := by
  unfold put at h
  split at h <;> cases h
  next hl => exact ⟨hl, rfl, rfl, rfl, rfl⟩

theorem load_drop (s : LeasedStore K V) (lease : Nat) (k : K) :
    (s.drop lease).kvs.load k = if s.Attached lease k then none else s.kvs.load k := by
  have hload : (s.drop lease).kvs.load k = if ¬ s.Attached lease k then s.kvs.load k else none :=
    SyncMap.load_filterKeys _ s.kvs k
  rw [hload, ite_not]

theorem load_drop_eq_some (s : LeasedStore K V) :
    (s.drop lease).kvs.load k = some (v, l) ↔ s.kvs.load k = some (v, l) ∧ l ≠ lease := by
  rw [load_drop]
  split
  next hat =>
    obtain ⟨e, he, rfl⟩ := hat
    constructor
    · rintro ⟨⟩
    · rintro ⟨h, hne⟩
      refine absurd ?_ hne
      rw [← Option.some.inj (h.symm.trans he)]
  next hfree => exact ⟨fun h => ⟨h, fun heq => hfree ⟨_, h, heq⟩⟩, And.left⟩

end

section
variable {K V : Type} [DecidableEq K] (r : K → K → Prop) [DecidableRel r] [IsTrans K r]
  [Std.Antisymm r] [Std.Total r]

def range (s : LeasedStore K V) (p : K → Bool) : List (K × V) :=
  ((s.kvs.keys.filter (p · = true)).sort r).filterMap fun k =>
    (s.kvs.load k).map fun e => (k, e.1)

variable {s : LeasedStore K V} {p : K → Bool}

theorem mem_range : (k, v) ∈ s.range r p ↔ p k ∧ ∃ l, s.kvs.load k = some (v, l) := by
  simp only [range, List.mem_filterMap, Finset.mem_sort, Finset.mem_filter, SyncMap.mem_keys,
    Option.map_eq_some_iff, Prod.mk.injEq]
  constructor
  · rintro ⟨j, ⟨-, hj⟩, ⟨w, l⟩, hload, rfl, rfl⟩
    exact ⟨hj, l, hload⟩
  · rintro ⟨hk, l, hload⟩
    exact ⟨k, ⟨by simp [hload], hk⟩, _, hload, rfl, rfl⟩

theorem nodup_range : ((s.range r p).map Prod.fst).Nodup := by
  have hsub : ∀ keys : List K,
      ((keys.filterMap fun k => (s.kvs.load k).map fun e => (k, e.1)).map Prod.fst).Sublist
        keys := by
    intro keys
    induction keys with
    | nil => exact .slnil
    | cons k keys ih =>
      rw [List.filterMap_cons]
      cases s.kvs.load k with
      | none => exact ih.cons k
      | some e => exact ih.cons_cons k
  exact (hsub _).nodup (Finset.sort_nodup _ r)

theorem range_congr {s' : LeasedStore K V} (h : ∀ k, p k → s.kvs.load k = s'.kvs.load k) :
    s.range r p = s'.range r p := by
  have hkeys : s.kvs.keys.filter (p · = true) = s'.kvs.keys.filter (p · = true) := by
    ext k
    simp only [Finset.mem_filter, SyncMap.mem_keys]
    exact and_congr_left fun hk => by rw [h k hk]
  rw [range, range, hkeys]
  refine List.filterMap_congr fun k hk => ?_
  rw [h k (Finset.mem_filter.mp ((Finset.mem_sort r).mp hk)).2]

/-- A watch is its keys and how many changes it has reported. -/
def service : LeaseService (LeasedStore K V) Nat ((K → Bool) × Nat) K V where
  empty := empty
  load s k := s.kvs.load k
  alive s l := l ∈ s.leases
  Granted s l := l < s.granted
  grant s := (s.granted, s.grant)
  put := put
  drop := drop
  range := range r
  watch s p := (p, s.changes.countP (p · = true))
  Watches w p s := w.1 = p ∧ w.2 ≤ s.changes.countP (p · = true)
  pending w s := s.changes.countP (w.1 · = true) - w.2
  receive w _ n := (w.1, w.2 + (n + 1))

theorem changes_le {s s' : LeasedStore K V} (h : (service r).Moved s s') :
    s.changes ≤ s'.changes := by
  cases h with
  | grant => exact le_rfl
  | put hput => exact (put_eq_some hput).2.2.2.2 ▸ Multiset.le_cons_self _ _
  | drop l => exact Multiset.le_add_right _ _

theorem changes_cons_le {s s' : LeasedStore K V} (h : (service r).Moved s s')
    (hk : s.kvs.load k ≠ s'.kvs.load k) : k ::ₘ s.changes ≤ s'.changes := by
  cases h with
  | grant => exact absurd rfl hk
  | put hput =>
    obtain ⟨-, hkvs, -, -, hchanges⟩ := put_eq_some hput
    rw [hkvs, SyncMap.load_store] at hk
    split at hk
    next heq => exact (hchanges.trans (heq ▸ rfl)).ge
    next => exact absurd rfl hk
  | drop l =>
    have hload := s.load_drop l k
    have hat : s.Attached l k := by
      by_contra hfree
      rw [if_neg hfree] at hload
      exact hk hload.symm
    have hmem : k ∈ s.kvs.keys := by
      obtain ⟨e, he, -⟩ := hat
      exact (SyncMap.mem_keys ..).mpr (by rw [show s.kvs.load k = some e from he]; rfl)
    have hone : {k} ≤ (s.kvs.keys.filter (s.Attached l)).val :=
      Multiset.singleton_le.mpr (Finset.mem_filter.mpr ⟨hmem, hat⟩)
    calc k ::ₘ s.changes = s.changes + {k} := by rw [← Multiset.singleton_add, add_comm]
      _ ≤ s.changes + (s.kvs.keys.filter (s.Attached l)).val := by gcongr

theorem laws : (service r : LeaseService (LeasedStore K V) Nat _ K V).Laws where
  load_empty k := SyncMap.load_empty k
  granted_of_alive s l h := s.given l (of_decide_eq_true h)
  grant_new s := lt_irrefl s.granted
  load_grant _ _ := rfl
  alive_grant s l := by simp [service, grant, or_comm]
  granted_grant s l h := Nat.lt_succ_of_lt h
  alive_of_put s s' k v l h := decide_eq_true (put_eq_some h).1
  load_put s s' k v l h k' := by
    show s'.kvs.load k' = _
    rw [(put_eq_some h).2.1, SyncMap.load_store]
    rfl
  alive_put s s' k v l h l' := by simp [service, (put_eq_some h).2.2.1]
  granted_put s s' k v l h l' hl := by
    show l' < s'.granted
    rw [(put_eq_some h).2.2.2.1]
    exact hl
  load_drop s l k v l' := load_drop_eq_some s
  alive_drop s l l' := by simp [service, drop, and_comm]
  granted_drop s l l' hl := hl
  mem_range s p k v := mem_range r
  nodup_range s p := nodup_range r
  range_congr s s' p h := range_congr r h
  watches_watch s p := ⟨rfl, le_rfl⟩
  watches_receive w p s n hw hn := by
    obtain ⟨rfl, hle⟩ := hw
    refine ⟨rfl, ?_⟩
    show w.2 + (n + 1) ≤ s.changes.countP (w.1 · = true)
    have hlt : n < s.changes.countP (w.1 · = true) - w.2 := hn
    omega
  watches_moved w p s s' hw h :=
    ⟨hw.1, hw.2.trans (Multiset.countP_le_of_le _ (changes_le r h))⟩
  pending_receive w s n _ := (Nat.sub_sub ..).symm
  pending_le w s s' h := Nat.sub_le_sub_right (Multiset.countP_le_of_le _ (changes_le r h)) _
  pending_lt w p s s' k hw h hk hload := by
    obtain ⟨rfl, hle⟩ := hw
    have hmore := Multiset.countP_le_of_le (w.1 · = true) (changes_cons_le r h hload)
    rw [Multiset.countP_cons_of_pos (p := fun k => w.1 k = true) _ hk] at hmore
    exact Nat.sub_lt_sub_right hle hmore

end

end LeasedStore

end Cardwar
