import Cardwar.Lib.Goroutine
import Cardwar.Lib.SyncMap

/-!
# A map of slices

A slice is a window into an array, and other slices may look into the same one.
`append` writes behind the window where the array has room, and otherwise copies
into a new array. A `sync.Map` of slices is shared by goroutines; the slices they
load, cut and append to are their own, the arrays are not. Each entry is a region of
its own: the slice, and the arrays that were made for it. The rules below say what
each operation does to the list a slice stands for, while others work on other
entries.
-/

namespace Cardwar.GoSlice

open Goroutine

structure Slice where
  array : Nat
  off : Nat
  len : Nat
  cap : Nat
  deriving DecidableEq

/-- `s[lo:hi]` -/
def Slice.cut (s : Slice) (lo hi : Nat) : Slice :=
  { s with off := s.off + lo, len := hi - lo, cap := s.cap - lo }

/-- The arrays made so far, each with the entry it was made for, which no code reads. -/
structure Mem (K α : Type) where
  arrays : List (K × List α) := []
  table : SyncMap K Slice := ∅

def double (cap _len : Nat) : Nat := 2 * cap

variable {K O α β : Type} [DecidableEq K]

def Mem.read (m : Mem K α) (s : Slice) : List α :=
  ((m.arrays[s.array]?).elim [] fun e => e.2.drop s.off).take s.len

def Mem.view (k : K) (m : Mem K α) : Option (List α) := (m.table.load k).map m.read

def Mem.write (m : Mem K α) (a : Nat) (f : List α → List α) : Mem K α :=
  { m with arrays := m.arrays.modify a fun e => (e.1, f e.2) }

def overwrite (xs : List α) (pos : Nat) (ys : List α) : List α :=
  xs.take pos ++ ys ++ xs.drop (pos + ys.length)

/-- `append(s, ys...)`. The capacity of a new array is up to `grow`, as long as it is
enough. -/
def Mem.append [Inhabited α] (grow : Nat → Nat → Nat) (k : K) (s : Slice) (ys : List α)
    (m : Mem K α) :
    Slice × Mem K α :=
  let len := s.len + ys.length
  if len ≤ s.cap then ({ s with len }, m.write s.array (overwrite · (s.off + s.len) ys))
  else
    let cap := max len (grow s.cap len)
    (⟨m.arrays.length, 0, len, cap⟩,
      { m with arrays := m.arrays ++ [(k, m.read s ++ ys ++ List.replicate (cap - len) default)] })

/-- `LoadOrStore` of an empty slice. -/
def Mem.loadOrStore (k : K) (m : Mem K α) : Slice × Mem K α :=
  match m.table.load k with
  | some s => (s, m)
  | none =>
    let s := ⟨m.arrays.length, 0, 0, 0⟩
    (s, ⟨m.arrays ++ [(k, [])], m.table.store k s⟩)

-- ---------------------------------------------------------------------------
-- Operations
-- ---------------------------------------------------------------------------

def load (k : K) : Prog (Mem K α) O (Option Slice) := get (·.table.load k)

def loadOrStore (k : K) : Prog (Mem K α) O Slice := modifyGet (Mem.loadOrStore k)

def store (k : K) (s : Slice) : Prog (Mem K α) O Unit :=
  modifyGet fun m => ((), { m with table := m.table.store k s })

def delete (k : K) : Prog (Mem K α) O Unit :=
  modifyGet fun m => ((), { m with table := m.table.delete k })

def update (s : Slice) (i : Nat) (f : α → α) : Prog (Mem K α) O Unit :=
  modifyGet fun m => ((), m.write s.array (·.modify (s.off + i) f))

section

variable [Inhabited α]

def index (s : Slice) (i : Nat) : Prog (Mem K α) O α := get fun m => ((m.read s)[i]?).getD default

def append (grow : Nat → Nat → Nat) (k : K) (s : Slice) (ys : List α) : Prog (Mem K α) O Slice :=
  modifyGet (Mem.append grow k s ys)

/-- `append(s[:i], s[i+1:]...)`, which moves what is behind `i` within the array. -/
def removeAt (grow : Nat → Nat → Nat) (k : K) (s : Slice) (i : Nat) : Prog (Mem K α) O Slice :=
  modifyGet fun m => Mem.append grow k (s.cut 0 i) (m.read (s.cut (i + 1) s.len)) m

def findFrom (s : Slice) (p : α → Bool) : Nat → Nat → Prog (Mem K α) O (Option Nat)
  | 0, _ => .ret none
  | n + 1, i => do
    let x ← index s i
    if p x then .ret (some i) else findFrom s p n (i + 1)

def findIdx (s : Slice) (p : α → Bool) : Prog (Mem K α) O (Option Nat) := findFrom s p s.len 0

def sendFrom (s : Slice) (f : α → O) : Nat → Nat → Prog (Mem K α) O Unit
  | 0, _ => .ret ()
  | n + 1, i => do
    let x ← index s i
    send (f x)
    sendFrom s f n (i + 1)

def sendEach (s : Slice) (f : α → O) : Prog (Mem K α) O Unit := sendFrom s f s.len 0

def mapFrom (s : Slice) (f : α → β) : Nat → Nat → Prog (Mem K α) O (List β)
  | 0, _ => .ret []
  | n + 1, i => do
    let x ← index s i
    let ys ← mapFrom s f n (i + 1)
    .ret (f x :: ys)

def mapEach (s : Slice) (f : α → β) : Prog (Mem K α) O (List β) := mapFrom s f s.len 0

end

-- ---------------------------------------------------------------------------
-- Who may write where
-- ---------------------------------------------------------------------------

/-- The slice looks into an array made for `k` and stands for `xs`. -/
def Holds (k : K) (m : Mem K α) (s : Slice) (xs : List α) : Prop :=
  ∃ arr, m.arrays[s.array]? = some (k, arr) ∧ s.off + s.cap ≤ arr.length ∧ s.len ≤ s.cap ∧
    (arr.drop s.off).take s.len = xs

def Owned (m : Mem K α) : Prop := ∀ k s, m.table.load k = some s → ∃ xs, Holds k m s xs

structure Same (k : K) (m m' : Mem K α) : Prop where
  entry : m'.table.load k = m.table.load k
  arrays : ∀ (a : Nat) arr, m.arrays[a]? = some (k, arr) → m'.arrays[a]? = some (k, arr)

abbrev frame : Frame (Mem K α) K where
  Inv := Owned
  Same := Same
  refl _ _ := ⟨rfl, fun _ _ h => h⟩
  trans _ _ _ _ h h' :=
    ⟨h'.entry.trans h.entry, fun a arr ha => h'.arrays a arr (h.arrays a arr ha)⟩

variable {R : K → Prop} {m m' : Mem K α} {s : Slice} {xs ys : List α} {k : K}

omit [DecidableEq K] in
theorem Holds.read (h : Holds k m s xs) : m.read s = xs := by
  obtain ⟨arr, ha, -, -, rfl⟩ := h
  rw [Mem.read, ha, Option.elim_some]

omit [DecidableEq K] in
theorem Holds.length (h : Holds k m s xs) : xs.length = s.len := by
  obtain ⟨arr, -, hcap, hlen, rfl⟩ := h
  rw [List.length_take, List.length_drop]
  omega

theorem Holds.same (h : Holds k m s xs) (hsame : Same k m m') : Holds k m' s xs := by
  obtain ⟨arr, ha, hrest⟩ := h
  exact ⟨arr, hsame.arrays _ _ ha, hrest⟩

theorem Holds.rely (h : Holds k m s xs) (hk : R k) (hrely : frame.Rely R m m') : Holds k m' s xs :=
  h.same (hrely.same k hk)

theorem Holds.view (h : Holds k m s xs) (hs : m.table.load k = some s) : m.view k = some xs := by
  rw [Mem.view, hs, Option.map_some, h.read]

theorem view_same (hinv : Owned m) (hsame : Same k m m') : m'.view k = m.view k := by
  rw [Mem.view, Mem.view, hsame.entry]
  cases hs : m.table.load k with
  | none => rfl
  | some s =>
    obtain ⟨xs, h⟩ := hinv k s hs
    rw [Option.map_some, Option.map_some, h.read, (h.same hsame).read]

theorem guarantee_write {f : List α → List α} (hinv : Owned m) (hk : R k)
    (ha : m.arrays[a]? = some (k, arr))
    (hlen : (f arr).length = arr.length) : frame.Guarantee R m (m.write a f) := by
  refine ⟨fun j s hs => ?_, fun j hj => ⟨rfl, fun b brr hb => ?_⟩⟩
  · obtain ⟨xs, brr, hb, hcap, hsl, -⟩ := hinv j s hs
    by_cases hab : s.array = a
    · subst hab
      obtain ⟨rfl, rfl⟩ := Prod.mk.inj (Option.some.inj (ha.symm.trans hb))
      refine ⟨_, f arr, ?_, hlen ▸ hcap, hsl, rfl⟩
      simp [Mem.write, ha]
    · refine ⟨_, brr, ?_, hcap, hsl, rfl⟩
      simp [Mem.write, Ne.symm hab, hb]
  · have hab : a ≠ b := by
      rintro rfl
      obtain ⟨rfl, -⟩ := Prod.mk.inj (Option.some.inj (ha.symm.trans hb))
      exact hj hk
    simp [Mem.write, hab, hb]

theorem guarantee_new (hinv : Owned m) (e : K × List α) :
    frame.Guarantee R m { m with arrays := m.arrays ++ [e] } := by
  have hold : ∀ (b : Nat) (d : K × List α), m.arrays[b]? = some d →
      (m.arrays ++ [e])[b]? = some d := by
    intro b d hb
    rw [List.getElem?_append_left (List.getElem?_eq_some_iff.mp hb).1, hb]
  refine ⟨fun j s hs => ?_, fun j _ => ⟨rfl, fun b brr => hold b _⟩⟩
  obtain ⟨xs, brr, hb, hrest⟩ := hinv j s hs
  exact ⟨xs, brr, hold _ _ hb, hrest⟩

theorem guarantee_table (hinv : Owned m) (hk : R k) {table : SyncMap K Slice}
    (hself : ∀ s, table.load k = some s → ∃ xs, Holds k m s xs)
    (hother : ∀ j, j ≠ k → table.load j = m.table.load j) :
    frame.Guarantee R m { m with table } := by
  refine ⟨fun j s hs => ?_, fun j hj => ⟨hother j fun heq => hj (heq ▸ hk), fun _ _ h => h⟩⟩
  by_cases hjk : j = k
  · subst hjk
    exact hself s hs
  · exact hinv j s ((hother j hjk).symm.trans hs)

theorem guarantee_store (hinv : Owned m) (hk : R k) (hs : Holds k m s xs) :
    frame.Guarantee R m { m with table := m.table.store k s } := by
  refine guarantee_table hinv hk (fun s' hs' => ?_) fun j hj => SyncMap.load_store_ne _ _ hj
  obtain rfl := Option.some.inj ((SyncMap.load_store_self ..).symm.trans hs')
  exact ⟨xs, hs⟩

-- ---------------------------------------------------------------------------
-- What the operations do to the lists
-- ---------------------------------------------------------------------------

omit [DecidableEq K] in
theorem length_overwrite (h : pos + ys.length ≤ xs.length) :
    (overwrite xs pos ys).length = xs.length := by
  simp only [overwrite, List.length_append, List.length_take, List.length_drop]
  omega

theorem window_overwrite (h : off + len + ys.length ≤ xs.length) :
    ((overwrite xs (off + len) ys).drop off).take (len + ys.length) =
      (xs.drop off).take len ++ ys := by
  have hoff : off ≤ (xs.take (off + len)).length := by
    rw [List.length_take]
    omega
  have hlen : len + ys.length = ((xs.drop off).take len ++ ys).length := by
    rw [List.length_append, List.length_take, List.length_drop]
    omega
  rw [overwrite, List.append_assoc, List.drop_append_of_le_length hoff, List.drop_take,
    Nat.add_sub_cancel_left, ← List.append_assoc, hlen, List.take_left]

omit [DecidableEq K] in
theorem Holds.cut (h : Holds k m s xs) (hlo : lo ≤ hi) (hhi : hi ≤ s.len) :
    Holds k m (s.cut lo hi) ((xs.drop lo).take (hi - lo)) := by
  obtain ⟨arr, ha, hcap, hlen, rfl⟩ := h
  refine ⟨arr, ha, ?_, ?_, ?_⟩
  · simp only [Slice.cut]
    omega
  · simp only [Slice.cut]
    omega
  · rw [List.drop_take, List.drop_drop, List.take_take, min_eq_left (by omega)]
    rfl

section

variable [Inhabited α]

theorem append_spec (hinv : Owned m) (hk : R k) (h : Holds k m s xs) (grow : Nat → Nat → Nat)
    (ys : List α) :
    frame.Guarantee R m (m.append grow k s ys).2 ∧
      Holds k (m.append grow k s ys).2 (m.append grow k s ys).1 (xs ++ ys) ∧
      (m.append grow k s ys).2.table = m.table := by
  have hread := h.read
  have hxs := h.length
  obtain ⟨arr, ha, hcap, hlen, hwindow⟩ := h
  unfold Mem.append
  dsimp only
  split
  next hroom =>
    have hfits : s.off + s.len + ys.length ≤ arr.length := by omega
    have hsize : (overwrite arr (s.off + s.len) ys).length = arr.length := length_overwrite hfits
    refine ⟨guarantee_write (f := (overwrite · (s.off + s.len) ys)) hinv hk ha hsize,
      ⟨overwrite arr (s.off + s.len) ys, ?_, ?_, hroom, ?_⟩, rfl⟩
    · simp [Mem.write, ha]
    · rw [hsize]
      exact hcap
    · rw [window_overwrite hfits, hwindow]
  next =>
    refine ⟨guarantee_new hinv _, ⟨_, List.getElem?_concat_length, ?_, le_max_left _ _, ?_⟩, rfl⟩
    · simp only [List.length_append, List.length_replicate, hread, hxs]
      omega
    · rw [hread, List.drop_zero, List.take_left']
      rw [List.length_append, hxs]

end

-- ---------------------------------------------------------------------------
-- Rules for goroutines
-- ---------------------------------------------------------------------------

structure Has (k : K) (m : Mem K α) (e : Option Slice) (s : Slice) (xs : List α) : Prop where
  entry : m.table.load k = e
  slice : Holds k m s xs

theorem Has.rely (h : Has k m e s xs) (hk : R k) (hrely : frame.Rely R m m') : Has k m' e s xs :=
  ⟨(hrely.same k hk).entry.trans h.entry, h.slice.rely hk hrely⟩

theorem Has.view (h : Has k m (some s) s xs) : m.view k = some xs := h.slice.view h.entry

theorem view_none (h : m.table.load k = none) : m.view k = none := by
  rw [Mem.view, h, Option.map_none]

variable {sent : List O}

theorem wp_load {Q : Option Slice → List O → Mem K α → Prop} (hinv : Owned m) (hk : R k)
    (hnone : m.view k = none → ∀ m', Owned m' → m'.table.load k = none → Q none sent m')
    (hsome : ∀ m' s xs, m.view k = some xs → Owned m' → Has k m' (some s) s xs →
      Q (some s) sent m') :
    wp frame R (load k) Q sent m := by
  refine wp_get (fun m' hm' => ?_) fun m' hm' => (hm'.same k hk).entry
  have hentry := (hm'.same k hk).entry
  cases hs : m.table.load k with
  | none => exact hnone (view_none hs) m' hm'.inv (hentry.trans hs)
  | some s =>
    obtain ⟨xs, h⟩ := hinv k s hs
    exact hsome m' s xs (h.view hs) hm'.inv (Has.rely ⟨hs, h⟩ hk hm')

theorem loadOrStore_spec (hinv : Owned m) (hk : R k) :
    frame.Guarantee R m (m.loadOrStore k).2 ∧
      Has k (m.loadOrStore k).2 (some (m.loadOrStore k).1) (m.loadOrStore k).1
        ((m.view k).getD []) := by
  unfold Mem.loadOrStore
  split
  next s hs =>
    obtain ⟨xs, h⟩ := hinv k s hs
    rw [h.view hs]
    exact ⟨.refl hinv, hs, h⟩
  next hs =>
    rw [view_none hs]
    have hnew : Holds k { m with arrays := m.arrays ++ [(k, [])] } ⟨m.arrays.length, 0, 0, 0⟩ [] :=
      ⟨[], List.getElem?_concat_length, le_rfl, le_rfl, rfl⟩
    have hg : frame.Guarantee R m { m with arrays := m.arrays ++ [(k, [])] } := guarantee_new hinv _
    have hg' := guarantee_store hg.inv hk hnew
    exact ⟨⟨hg'.inv, fun j hj => frame.trans j _ _ _ (hg.same j hj) (hg'.same j hj)⟩,
      SyncMap.load_store_self .., hnew⟩

theorem wp_loadOrStore {Q : Slice → List O → Mem K α → Prop} (hinv : Owned m) (hk : R k)
    (h : ∀ m' s, Owned m' → Has k m' (some s) s ((m.view k).getD []) → Q s sent m') :
    wp frame R (loadOrStore k) Q sent m := by
  refine wp_modifyGet fun t ht => ?_
  rw [← view_same hinv (ht.same k hk)] at h
  obtain ⟨hg, hhas⟩ := loadOrStore_spec ht.inv hk
  exact ⟨hg, fun u hu => h u _ hu.inv (hhas.rely hk hu)⟩

theorem wp_store {Q : Unit → List O → Mem K α → Prop} (hk : R k) (hs : Holds k m s xs)
    (h : ∀ m', Owned m' → Has k m' (some s) s xs → Q () sent m') :
    wp frame R (store k s) Q sent m := by
  refine wp_modifyGet fun t ht => ?_
  have hst := hs.rely hk ht
  have hhas : Has k { t with table := t.table.store k s } (some s) s xs :=
    ⟨SyncMap.load_store_self .., hst⟩
  exact ⟨guarantee_store ht.inv hk hst, fun u hu => h u hu.inv (hhas.rely hk hu)⟩

theorem wp_delete {Q : Unit → List O → Mem K α → Prop} (hk : R k)
    (h : ∀ m', Owned m' → m'.table.load k = none → Q () sent m') :
    wp frame R (delete k) Q sent m := by
  refine wp_modifyGet fun t ht => ?_
  refine ⟨guarantee_table ht.inv hk (by simp) fun j hj => SyncMap.load_delete_ne _ hj,
    fun u hu => ?_⟩
  exact h u hu.inv ((hu.same k hk).entry.trans (SyncMap.load_delete_self ..))

theorem wp_update {Q : Unit → List O → Mem K α → Prop} (hk : R k) (hs : Has k m e s xs)
    (i : Nat) (f : α → α)
    (h : ∀ m', Owned m' → Has k m' e s (xs.modify i f) → Q () sent m') :
    wp frame R (update s i f) Q sent m := by
  refine wp_modifyGet fun t ht => ?_
  obtain ⟨hentry, arr, ha, hcap, hlen, rfl⟩ := hs.rely hk ht
  have hhas : Has k (t.write s.array (·.modify (s.off + i) f)) e s
      (((arr.drop s.off).take s.len).modify i f) := by
    refine ⟨hentry,
      arr.modify (s.off + i) f, by simp [Mem.write, ha], by simpa using hcap, hlen, ?_⟩
    apply List.ext_getElem?
    intro j
    simp only [List.getElem?_take, List.getElem?_drop, List.getElem?_modify]
    grind
  have hsize : (arr.modify (s.off + i) f).length = arr.length := List.length_modify ..
  exact ⟨guarantee_write (f := (·.modify (s.off + i) f)) ht.inv hk ha hsize,
    fun u hu => h u hu.inv (hhas.rely hk hu)⟩

section

variable [Inhabited α]

theorem wp_append {Q : Slice → List O → Mem K α → Prop} (hk : R k) (hs : Has k m e s xs)
    (grow : Nat → Nat → Nat)
    (ys : List α) (h : ∀ m' s', Owned m' → Has k m' e s' (xs ++ ys) → Q s' sent m') :
    wp frame R (append grow k s ys) Q sent m := by
  refine wp_modifyGet fun t ht => ?_
  have hst := hs.rely hk ht
  obtain ⟨hg, hholds, htable⟩ := append_spec ht.inv hk hst.slice grow ys
  exact ⟨hg, fun u hu => h u _ hu.inv (Has.rely ⟨htable ▸ hst.entry, hholds⟩ hk hu)⟩

theorem wp_removeAt {Q : Slice → List O → Mem K α → Prop} (hk : R k) (hs : Has k m e s xs)
    (hi : i < s.len)
    (grow : Nat → Nat → Nat)
    (h : ∀ m' s', Owned m' → Has k m' e s' (xs.eraseIdx i) → Q s' sent m') :
    wp frame R (removeAt grow k s i) Q sent m := by
  refine wp_modifyGet fun t ht => ?_
  have hst := hs.rely hk ht
  have hbefore : Holds k t (s.cut 0 i) (xs.take i) := by
    simpa using hst.slice.cut (Nat.zero_le i) hi.le
  have hbehind : t.read (s.cut (i + 1) s.len) = xs.drop (i + 1) := by
    rw [(hst.slice.cut hi le_rfl).read, List.take_of_length_le]
    rw [List.length_drop, hst.slice.length]
  obtain ⟨hg, hholds, htable⟩ := append_spec ht.inv hk hbefore grow (xs.drop (i + 1))
  rw [← List.eraseIdx_eq_take_drop_succ] at hholds
  rw [hbehind]
  exact ⟨hg, fun u hu => h u _ hu.inv (Has.rely ⟨htable ▸ hst.entry, hholds⟩ hk hu)⟩

theorem wp_index {Q : α → List O → Mem K α → Prop} (hk : R k) (hs : Holds k m s xs)
    (hi : xs[i]? = some x)
    (h : ∀ m', frame.Rely R m m' → Q x sent m') : wp frame R (index s i) Q sent m := by
  have hread : ∀ m', Holds k m' s xs → ((m'.read s)[i]?).getD default = x := by
    intro m' hm'
    rw [hm'.read, hi, Option.getD_some]
  refine wp_get (fun m' hm' => ?_) fun m' hm' => ?_
  · rw [hread m hs]
    exact h m' hm'
  · rw [hread m hs, hread m' (hs.rely hk hm')]

theorem wp_findFrom {Q : Option Nat → List O → Mem K α → Prop} (hinv : Owned m) (hk : R k)
    (hs : Holds k m s xs) (p : α → Bool) (n i : Nat) (hn : i + n = s.len)
    (h : ∀ m', frame.Rely R m m' → Q (((xs.drop i).findIdx? p).map (· + i)) sent m') :
    wp frame R (findFrom s p n i) Q sent m := by
  have hlen := hs.length
  induction n generalizing m i with
  | zero =>
    intro u hu
    have hdrop : xs.drop i = [] := List.drop_eq_nil_of_le (by omega)
    have hQ := h u hu
    rwa [hdrop, List.findIdx?_nil, Option.map_none] at hQ
  | succ n ih =>
    have hi : i < xs.length := by omega
    have hcons : xs.drop i = xs[i] :: xs.drop (i + 1) := List.drop_eq_getElem_cons hi
    refine wp_bind hinv (wp_index hk hs (List.getElem?_eq_getElem hi) fun t ht => ?_)
    split
    next hp =>
      intro u hu
      have hQ := h u (ht.trans hu)
      rwa [hcons, List.findIdx?_cons, if_pos hp, Option.map_some, Nat.zero_add] at hQ
    next hp =>
      refine ih ht.inv (hs.rely hk ht) (i + 1) (by omega) fun u hu => ?_
      have hQ := h u (ht.trans hu)
      rw [hcons, List.findIdx?_cons, if_neg hp, Option.map_map] at hQ
      convert hQ using 2
      funext j
      simp only [Function.comp]
      omega

theorem wp_findIdx {Q : Option Nat → List O → Mem K α → Prop} (hinv : Owned m) (hk : R k)
    (hs : Holds k m s xs) (p : α → Bool) (h : ∀ m', frame.Rely R m m' → Q (xs.findIdx? p) sent m') :
    wp frame R (findIdx s p) Q sent m := by
  refine wp_findFrom hinv hk hs p s.len 0 (Nat.zero_add _) fun m' hm' => ?_
  simpa using h m' hm'

theorem wp_sendFrom {Q : Unit → List O → Mem K α → Prop} (hinv : Owned m) (hk : R k)
    (hs : Holds k m s xs) (f : α → O) (n i : Nat) (hn : i + n = s.len)
    (h : ∀ m', frame.Rely R m m' → Q () (sent ++ (xs.drop i).map f) m') :
    wp frame R (sendFrom s f n i) Q sent m := by
  have hlen := hs.length
  induction n generalizing m i sent with
  | zero =>
    intro u hu
    have hdrop : xs.drop i = [] := List.drop_eq_nil_of_le (by omega)
    have hQ := h u hu
    rwa [hdrop, List.map_nil, List.append_nil] at hQ
  | succ n ih =>
    have hi : i < xs.length := by omega
    refine wp_bind hinv (wp_index hk hs (List.getElem?_eq_getElem hi) fun t ht => ?_)
    refine wp_bind ht.inv fun u hu => ?_
    refine ih hu.inv (hs.rely hk (ht.trans hu)) (i + 1) (by omega) fun v hv => ?_
    have hQ := h v ((ht.trans hu).trans hv)
    rwa [List.drop_eq_getElem_cons hi, List.map_cons, List.append_cons] at hQ

theorem wp_sendEach {Q : Unit → List O → Mem K α → Prop} (hinv : Owned m) (hk : R k)
    (hs : Holds k m s xs) (f : α → O) (h : ∀ m', frame.Rely R m m' → Q () (sent ++ xs.map f) m') :
    wp frame R (sendEach s f) Q sent m :=
  wp_sendFrom hinv hk hs f s.len 0 (Nat.zero_add _) h

theorem wp_mapFrom {Q : List β → List O → Mem K α → Prop} (hinv : Owned m) (hk : R k)
    (hs : Holds k m s xs) (f : α → β) (n i : Nat) (hn : i + n = s.len)
    (h : ∀ m', frame.Rely R m m' → Q ((xs.drop i).map f) sent m') :
    wp frame R (mapFrom s f n i) Q sent m := by
  have hlen := hs.length
  induction n generalizing m i Q with
  | zero =>
    intro u hu
    have hdrop : xs.drop i = [] := List.drop_eq_nil_of_le (by omega)
    have hQ := h u hu
    rwa [hdrop, List.map_nil] at hQ
  | succ n ih =>
    have hi : i < xs.length := by omega
    rw [List.drop_eq_getElem_cons hi, List.map_cons] at h
    refine wp_bind hinv (wp_index hk hs (List.getElem?_eq_getElem hi) fun t ht => ?_)
    refine wp_bind ht.inv (ih ht.inv (hs.rely hk ht) (i + 1) (by omega) fun u hu => ?_)
    exact fun v hv => h v ((ht.trans hu).trans hv)

theorem wp_mapEach {Q : List β → List O → Mem K α → Prop} (hinv : Owned m) (hk : R k)
    (hs : Holds k m s xs)
    (f : α → β) (h : ∀ m', frame.Rely R m m' → Q (xs.map f) sent m') :
    wp frame R (mapEach s f) Q sent m :=
  wp_mapFrom hinv hk hs f s.len 0 (Nat.zero_add _) h

end

end Cardwar.GoSlice
