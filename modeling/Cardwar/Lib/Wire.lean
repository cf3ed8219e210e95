import Mathlib

/-!
# Tagged fields on the wire

A message is a sequence of fields, each a tag (field number and wire type)
followed by a value. The reader takes field after field and hands those it can
read to the message; the others are skipped. What stands before an error has
been read, so an error carries the message so far.

Reading what was written hands the message the fields in order (`decode_fields`).
-/

namespace Cardwar.Wire

abbrev Bytes := List UInt8

inductive Value
  | varint (n : UInt64)
  | len (bs : Bytes)
  deriving DecidableEq

abbrev Field := Nat × Value

def maxFieldNumber : Nat := 2 ^ 29 - 1

/-- The base 128 digits, lowest first, all but the last with the high bit set. -/
def digits : Nat → Nat → Bytes
  | 0, _ => []
  | k + 1, n => if n < 128 then [n.toUInt8] else (n % 128 + 128).toUInt8 :: digits k (n / 128)

def varint (n : Nat) : Bytes := digits 10 n

def tag (num wireType : Nat) : Bytes := varint (8 * num + wireType)

def field : Field → Bytes
  | (num, .varint n) => tag num 0 ++ varint n.toNat
  | (num, .len bs) => tag num 2 ++ varint bs.length ++ bs

def fields (fs : List Field) : Bytes := fs.flatMap field

/-- What a field has to be for its tag and its length to be read back. -/
def Writable : Field → Prop
  | (num, .varint _) => 0 < num ∧ num ≤ maxFieldNumber
  | (num, .len bs) => 0 < num ∧ num ≤ maxFieldNumber ∧ bs.length < 2 ^ 64

/-- At most ten digits, of which the tenth is at most 1. -/
def consumeDigits : Nat → Bytes → Option (Nat × Bytes)
  | 0, _ => none
  | _ + 1, [] => none
  | k + 1, b :: bs =>
    if b.toNat < 128 then if k = 0 ∧ 1 < b.toNat then none else some (b.toNat, bs)
    else (consumeDigits k bs).map fun (n, rest) => (b.toNat - 128 + 128 * n, rest)

def consumeVarint (bs : Bytes) : Option (Nat × Bytes) := consumeDigits 10 bs

def consumeTag (maxNumber : Nat) (bs : Bytes) : Option (Nat × Nat × Bytes) :=
  (consumeVarint bs).bind fun (n, rest) =>
    if 0 < n / 8 ∧ n / 8 ≤ maxNumber then some (n / 8, n % 8, rest) else none

def consumeFixed (n : Nat) (bs : Bytes) : Option (Bytes × Bytes) :=
  if n ≤ bs.length then some (bs.splitAt n) else none

def consumeBytes (bs : Bytes) : Option (Bytes × Bytes) :=
  (consumeVarint bs).bind fun (n, rest) => consumeFixed n rest

def consumeScalar (wireType : Nat) (bs : Bytes) : Option (Option Value × Bytes) :=
  match wireType with
  | 0 => (consumeVarint bs).map fun (n, rest) => (some (.varint n.toUInt64), rest)
  | 1 => (consumeFixed 8 bs).map fun (_, rest) => (none, rest)
  | 2 => (consumeBytes bs).map fun (v, rest) => (some (.len v), rest)
  | 5 => (consumeFixed 4 bs).map fun (_, rest) => (none, rest)
  | _ => none

def maxDepth : Nat := 10000

/-- Skips to the end of the groups that are open, the innermost first. Inside a
group any field number is let through. -/
def skipGroups : Nat → List Nat → Bytes → Option Bytes
  | _, [], bs => some bs
  | 0, _, _ => none
  | fuel + 1, num :: outer, bs => match consumeTag (2 ^ 31 - 1) bs with
    | none => none
    | some (n, 3, rest) =>
      if outer.length < maxDepth then skipGroups fuel (n :: num :: outer) rest else none
    | some (n, 4, rest) => if n = num then skipGroups fuel outer rest else none
    | some (_, wireType, rest) =>
      (consumeScalar wireType rest).bind fun (_, rest) => skipGroups fuel (num :: outer) rest

def consumeValue (num wireType : Nat) (bs : Bytes) : Option (Option Value × Bytes) :=
  if wireType = 3 then (skipGroups bs.length [num] bs).map fun rest => (none, rest)
  else consumeScalar wireType bs

variable {M : Type} (set : M → Nat → Value → Option M)

/-- `set` takes a field into the message; it keeps the message for a field it
does not know and fails on a value that is not allowed. -/
def decodeFrom : Nat → M → Bytes → Except M M
  | _, m, [] => .ok m
  | 0, m, _ => .error m
  | fuel + 1, m, bs => match consumeTag maxFieldNumber bs with
    | none => .error m
    | some (num, wireType, rest) => match consumeValue num wireType rest with
      | none => .error m
      | some (none, rest) => decodeFrom fuel m rest
      | some (some v, rest) => match set m num v with
        | none => .error m
        | some m => decodeFrom fuel m rest

def decode (m : M) (bs : Bytes) : Except M M := decodeFrom set bs.length m bs

def setAll : M → List Field → Except M M
  | m, [] => .ok m
  | m, (num, v) :: fs => match set m num v with
    | none => .error m
    | some m => setAll m fs

theorem toNat_toUInt8 (h : n < 256) : n.toUInt8.toNat = n := by
  simp [Nat.mod_eq_of_lt h]

theorem consumeDigits_digits (k n : Nat) (h : n < 2 ^ (7 * k + 1)) (rest : Bytes) :
    consumeDigits (k + 1) (digits (k + 1) n ++ rest) = some (n, rest) := by
  induction k generalizing n with
  | zero =>
    have hn : n < 2 := h
    simp [digits, consumeDigits, show n < 128 by omega, toNat_toUInt8 (show n < 256 by omega)]
    omega
  | succ k ih =>
    by_cases hn : n < 128
    · rw [digits, if_pos hn]
      simp [consumeDigits, toNat_toUInt8 (show n < 256 by omega), hn]
    · have hrest : n / 128 < 2 ^ (7 * k + 1) := by
        rw [Nat.div_lt_iff_lt_mul (by decide)]
        calc n < 2 ^ (7 * (k + 1) + 1) := h
          _ = 2 ^ (7 * k + 1) * 128 := by
            rw [show 7 * (k + 1) + 1 = 7 * k + 1 + 7 by omega, Nat.pow_add]
      have hbyte : (n % 128 + 128).toUInt8.toNat = n % 128 + 128 := toNat_toUInt8 (by omega)
      rw [digits, if_neg hn, List.cons_append, consumeDigits, hbyte, if_neg (by omega), ih _ hrest]
      simp only [Option.map_some, Option.some.injEq, Prod.mk.injEq, and_true]
      omega

theorem consumeVarint_varint (h : n < 2 ^ 64) (rest : Bytes) :
    consumeVarint (varint n ++ rest) = some (n, rest) :=
  consumeDigits_digits 9 n h rest

theorem consumeTag_tag (hnum : 0 < num ∧ num ≤ maxFieldNumber) (hw : wireType < 8) (rest : Bytes) :
    consumeTag maxFieldNumber (tag num wireType ++ rest) = some (num, wireType, rest) := by
  have hmax : maxFieldNumber = 536870911 := rfl
  have hdiv : (8 * num + wireType) / 8 = num := by omega
  have hmod : (8 * num + wireType) % 8 = wireType := by omega
  rw [consumeTag, tag, consumeVarint_varint (by omega), Option.bind_some]
  simp only [hdiv, hmod, if_pos hnum]

theorem consumeBytes_bytes (h : bs.length < 2 ^ 64) (rest : Bytes) :
    consumeBytes (varint bs.length ++ bs ++ rest) = some (bs, rest) := by
  rw [consumeBytes, List.append_assoc, consumeVarint_varint h, Option.bind_some]
  simp [consumeFixed]

theorem decodeFrom_nil (fuel : Nat) (m : M) : decodeFrom set fuel m [] = .ok m := by
  cases fuel <;> rfl

theorem digits_cons (k n : Nat) : ∃ b bs, digits (k + 1) n = b :: bs := by
  unfold digits
  split
  · exact ⟨_, _, rfl⟩
  · exact ⟨_, _, rfl⟩

theorem field_cons (f : Field) : ∃ b bs, field f = b :: bs := by
  obtain ⟨num, v⟩ := f
  cases v with
  | varint n =>
    obtain ⟨b, bs, h⟩ := digits_cons 9 (8 * num + 0)
    exact ⟨b, bs ++ varint n.toNat, by rw [field, tag, varint, h]; rfl⟩
  | len v =>
    obtain ⟨b, bs, h⟩ := digits_cons 9 (8 * num + 2)
    exact ⟨b, bs ++ varint v.length ++ v, by rw [field, tag, varint, h]; rfl⟩

theorem decodeFrom_field (hw : Writable (num, v)) (fuel : Nat) (m : M) (rest : Bytes) :
    decodeFrom set (fuel + 1) m (field (num, v) ++ rest) =
      match set m num v with
      | none => .error m
      | some m => decodeFrom set fuel m rest := by
  obtain ⟨b, bs, hbs⟩ := field_cons (num, v)
  rw [hbs, List.cons_append, decodeFrom, ← List.cons_append, ← hbs]
  · cases v with
    | varint n =>
      rw [field, List.append_assoc, consumeTag_tag hw (by decide)]
      simp only [consumeValue, consumeScalar, consumeVarint_varint n.toNat_lt]
      simp
    | len bs =>
      rw [field, List.append_assoc, List.append_assoc, consumeTag_tag ⟨hw.1, hw.2.1⟩ (by decide)]
      simp only [consumeValue, consumeScalar, ← List.append_assoc, consumeBytes_bytes hw.2.2]
      simp
  · simp

theorem decodeFrom_fields (hw : ∀ f ∈ fs, Writable f) (m : M) (hfuel : fs.length ≤ fuel) :
    decodeFrom set fuel m (fields fs) = setAll set m fs := by
  induction fs generalizing m fuel with
  | nil => exact decodeFrom_nil set fuel m
  | cons f fs ih =>
    obtain ⟨num, v⟩ := f
    obtain ⟨fuel, rfl⟩ : ∃ k, fuel = k + 1 := ⟨fuel - 1, by simp at hfuel; omega⟩
    rw [fields, List.flatMap_cons, decodeFrom_field set (hw _ List.mem_cons_self), setAll]
    cases set m num v with
    | none => rfl
    | some m => exact ih (fun g hg => hw g (List.mem_cons_of_mem _ hg)) m (by simpa using hfuel)

theorem length_le_fields (fs : List Field) : fs.length ≤ (fields fs).length := by
  induction fs with
  | nil => exact Nat.le_refl _
  | cons f fs ih =>
    obtain ⟨b, bs, hbs⟩ := field_cons f
    simp only [fields, List.flatMap_cons, hbs, List.length_append, List.length_cons] at ih ⊢
    omega

theorem decode_fields (hw : ∀ f ∈ fs, Writable f) (m : M) :
    decode set m (fields fs) = setAll set m fs :=
  decodeFrom_fields set hw m (length_le_fields fs)

theorem setAll_append {m m' : M} {fs gs : List Field} (h : setAll set m fs = .ok m') :
    setAll set m (fs ++ gs) = setAll set m' gs := by
  induction fs generalizing m with
  | nil =>
    cases h
    rfl
  | cons f fs ih =>
    obtain ⟨num, v⟩ := f
    simp only [setAll, List.cons_append] at h ⊢
    split at h
    next => cases h
    next => exact ih h

theorem length_le_of_mem (h : (num, .len v) ∈ fs) : v.length ≤ (fields fs).length := by
  have hfield : (field (num, .len v)).length ≤ (fields fs).length :=
    (List.sublist_flatten_of_mem (List.mem_map_of_mem h)).length_le
  simp only [field, List.length_append] at hfield
  omega

theorem writable_of_length (hnum : ∀ f ∈ fs, 0 < f.1 ∧ f.1 ≤ maxFieldNumber)
    (hlen : (fields fs).length < 2 ^ 64) : ∀ f ∈ fs, Writable f := by
  rintro ⟨num, v⟩ hf
  cases v with
  | varint n => exact hnum _ hf
  | len v => exact ⟨(hnum _ hf).1, (hnum _ hf).2, Nat.lt_of_le_of_lt (length_le_of_mem hf) hlen⟩

theorem length_varint_le (n : Nat) : (varint n).length ≤ 10 := by
  have h : ∀ k n, (digits k n).length ≤ k := by
    intro k
    induction k with
    | zero => exact fun _ => Nat.le_refl 0
    | succ k ih =>
      intro n
      unfold digits
      split
      · simp
      · simpa using ih (n / 128)
  exact h 10 n

def Value.length : Value → Nat
  | .varint _ => 0
  | .len bs => bs.length

theorem length_field_le (f : Field) : (field f).length ≤ 20 + f.2.length := by
  obtain ⟨num, v⟩ := f
  cases v with
  | varint n =>
    have htag := length_varint_le (8 * num + 0)
    have hval := length_varint_le n.toNat
    simp only [field, tag, List.length_append, Value.length]
    omega
  | len bs =>
    have htag := length_varint_le (8 * num + 2)
    have hlen := length_varint_le bs.length
    simp only [field, tag, List.length_append, Value.length]
    omega

theorem length_fields_le (fs : List Field) :
    (fields fs).length ≤ (fs.map fun f => 20 + f.2.length).sum := by
  induction fs with
  | nil => exact Nat.le_refl 0
  | cons f fs ih =>
    have hf := length_field_le f
    simp only [fields, List.flatMap_cons, List.length_append, List.map_cons, List.sum_cons] at ih ⊢
    omega

theorem consumeDigits_length (h : consumeDigits k bs = some (n, rest)) :
    rest.length ≤ bs.length := by
  induction k generalizing bs n with
  | zero => cases h
  | succ k ih =>
    cases bs with
    | nil => cases h
    | cons b bs =>
      rw [consumeDigits] at h
      split at h
      · split at h <;> cases h
        simp
      · obtain ⟨⟨m, tail⟩, hm, htail⟩ := Option.map_eq_some_iff.mp h
        cases htail
        exact Nat.le_succ_of_le (ih hm)

theorem consumeTag_length (h : consumeTag maxNumber bs = some (num, wireType, rest)) :
    rest.length ≤ bs.length := by
  obtain ⟨⟨n, tail⟩, hn, htail⟩ := Option.bind_eq_some_iff.mp h
  dsimp only at htail
  split at htail <;> cases htail
  exact consumeDigits_length hn

theorem consumeFixed_length (h : consumeFixed n bs = some (v, rest)) :
    v.length ≤ bs.length ∧ rest.length ≤ bs.length := by
  unfold consumeFixed at h
  rw [List.splitAt_eq] at h
  split at h <;> cases h
  exact ⟨(List.take_sublist n bs).length_le, (List.drop_sublist n bs).length_le⟩

theorem consumeScalar_length (h : consumeScalar wireType bs = some (v, rest)) :
    (∀ w ∈ v, w.length ≤ bs.length) ∧ rest.length ≤ bs.length := by
  unfold consumeScalar at h
  split at h
  · obtain ⟨⟨n, tail⟩, hn, htail⟩ := Option.map_eq_some_iff.mp h
    cases htail
    exact ⟨by simp [Value.length], consumeDigits_length hn⟩
  · obtain ⟨⟨w, tail⟩, hw, htail⟩ := Option.map_eq_some_iff.mp h
    cases htail
    exact ⟨by simp, (consumeFixed_length hw).2⟩
  · obtain ⟨⟨w, tail⟩, hw, htail⟩ := Option.map_eq_some_iff.mp h
    cases htail
    obtain ⟨⟨n, mid⟩, hn, hmid⟩ := Option.bind_eq_some_iff.mp hw
    have hle := consumeDigits_length hn
    obtain ⟨hw, hrest⟩ := consumeFixed_length hmid
    exact ⟨by simpa [Value.length] using Nat.le_trans hw hle, Nat.le_trans hrest hle⟩
  · obtain ⟨⟨w, tail⟩, hw, htail⟩ := Option.map_eq_some_iff.mp h
    cases htail
    exact ⟨by simp, (consumeFixed_length hw).2⟩
  · cases h

theorem skipGroups_length (h : skipGroups fuel open_ bs = some rest) : rest.length ≤ bs.length := by
  induction fuel generalizing open_ bs with
  | zero =>
    cases open_ with
    | nil =>
      rw [skipGroups] at h
      exact Option.some.inj h ▸ Nat.le_refl _
    | cons => cases h
  | succ fuel ih =>
    cases open_ with
    | nil =>
      rw [skipGroups] at h
      exact Option.some.inj h ▸ Nat.le_refl _
    | cons num outer =>
      rw [skipGroups] at h
      split at h
      next => cases h
      next ht =>
        split at h
        · exact Nat.le_trans (ih h) (consumeTag_length ht)
        · cases h
      next ht =>
        split at h
        · exact Nat.le_trans (ih h) (consumeTag_length ht)
        · cases h
      next ht =>
        obtain ⟨⟨v, tail⟩, hv, htail⟩ := Option.bind_eq_some_iff.mp h
        exact Nat.le_trans (ih htail)
          (Nat.le_trans (consumeScalar_length hv).2 (consumeTag_length ht))

theorem consumeValue_length (h : consumeValue num wireType bs = some (v, rest)) :
    (∀ w ∈ v, w.length ≤ bs.length) ∧ rest.length ≤ bs.length := by
  unfold consumeValue at h
  split at h
  · obtain ⟨tail, hskip, htail⟩ := Option.map_eq_some_iff.mp h
    cases htail
    exact ⟨by simp, skipGroups_length hskip⟩
  · exact consumeScalar_length h

theorem decodeFrom_keeps {P : M → Prop} (hbs : bs.length ≤ len)
    (keep : ∀ m num v m', P m → v.length ≤ len → set m num v = some m' → P m')
    (h0 : P m) (h : decodeFrom set fuel m bs = .ok m') : P m' := by
  induction fuel generalizing m bs with
  | zero =>
    cases bs with
    | nil => exact Except.ok.inj h ▸ h0
    | cons => cases h
  | succ fuel ih =>
    cases bs with
    | nil => exact Except.ok.inj h ▸ h0
    | cons b bs =>
      simp only [decodeFrom] at h
      split at h
      next => cases h
      next num wireType rest ht =>
        have htag := consumeTag_length ht
        split at h
        next => cases h
        next tail hv =>
          have htail := (consumeValue_length hv).2
          exact ih (by omega) h0 h
        next v tail hv =>
          obtain ⟨hlen, htail⟩ := consumeValue_length hv
          have hval := hlen v rfl
          split at h
          next => cases h
          next m1 hset => exact ih (by omega) (keep _ _ _ _ h0 (by omega) hset) h

theorem decode_keeps {P : M → Prop}
    (keep : ∀ m num v m', P m → v.length ≤ bs.length → set m num v = some m' → P m')
    (h0 : P m) (h : decode set m bs = .ok m') : P m' :=
  decodeFrom_keeps set (Nat.le_refl _) keep h0 h

end Cardwar.Wire
