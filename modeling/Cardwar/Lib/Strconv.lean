import Mathlib

/-!
# Decimal numbers in text

Parsing to 64 bits the way a caller sees it who ignores the error: text that is
not a number gives 0, a number out of range the nearest one in range. A number
is out of range as soon as its digits so far are, whatever follows them.
-/

namespace Cardwar.Strconv

/-- The digits in `text` appended to `n`, at most `2 ^ 64 - 1`; `none` for a
character that is no digit. -/
def scan : Nat → List Char → Option Nat
  | n, [] => some n
  | n, c :: cs =>
    if c.isDigit then
      let n := 10 * n + (c.toNat - '0'.toNat)
      if n < 2 ^ 64 then scan n cs else some (2 ^ 64 - 1)
    else none

def scanNonempty : List Char → Option Nat
  | [] => none
  | cs => scan 0 cs

def parseUint (text : String) : UInt64 := ((scanNonempty text.toList).getD 0).toUInt64

def parseInt (text : String) : Int64 :=
  let (neg, digits) := match text.toList with
    | '+' :: cs => (false, cs)
    | '-' :: cs => (true, cs)
    | cs => (false, cs)
  match scanNonempty digits with
  | none => 0
  | some n => if neg then Int64.ofInt (-min n (2 ^ 63)) else Int64.ofInt (min n (2 ^ 63 - 1))

/-- Parsing with its error: `none` for text that is not a number of 64 bits. -/
def parseInt? (text : List Char) : Option Int64 :=
  match text with
  | '+' :: cs => (scanNonempty cs).bind positive
  | '-' :: cs =>
    (scanNonempty cs).bind fun n => if n ≤ 2 ^ 63 then some (Int64.ofInt (-n)) else none
  | cs => (scanNonempty cs).bind positive
where
  positive (n : Nat) : Option Int64 := if n < 2 ^ 63 then some (Int64.ofInt n) else none

def formatInt (n : Int64) : String := toString n.toInt

def formatUint (n : UInt64) : String := toString n.toNat

theorem le_ofDigitChars (cs : List Char) (n : Nat) : n ≤ Nat.ofDigitChars 10 cs n := by
  induction cs generalizing n with
  | nil => exact Nat.le_refl n
  | cons c cs ih =>
    rw [Nat.ofDigitChars_cons]
    exact Nat.le_trans (by omega) (ih _)

theorem scan_digits (hd : ∀ c ∈ cs, c.isDigit) (h : Nat.ofDigitChars 10 cs n < 2 ^ 64) :
    scan n cs = some (Nat.ofDigitChars 10 cs n) := by
  induction cs generalizing n with
  | nil => rfl
  | cons c cs ih =>
    rw [Nat.ofDigitChars_cons] at h ⊢
    have hlt := Nat.lt_of_le_of_lt (le_ofDigitChars cs _) h
    rw [scan, if_pos (hd c List.mem_cons_self), if_pos hlt]
    exact ih (fun d hdm => hd d (List.mem_cons_of_mem c hdm)) h

theorem scanNonempty_toDigits (h : n < 2 ^ 64) : scanNonempty (Nat.toDigits 10 n) = some n := by
  have hval : Nat.ofDigitChars 10 (Nat.toDigits 10 n) 0 = n :=
    Nat.ofDigitChars_toDigits (by decide) (by decide)
  have hscan : scan 0 (Nat.toDigits 10 n) = some n := by
    rw [scan_digits (fun c hc => Nat.isDigit_of_mem_toDigits (by decide) (by decide) hc), hval]
    rw [hval]
    exact h
  have hne : scanNonempty (Nat.toDigits 10 n) = scan 0 (Nat.toDigits 10 n) := by
    cases h : Nat.toDigits 10 n with
    | nil => exact absurd h Nat.toDigits_ne_nil
    | cons c cs => rfl
  rw [hne, hscan]

theorem toList_toString (n : Nat) : (toString n).toList = Nat.toDigits 10 n := by
  rw [Nat.toString_eq_repr, Nat.repr_eq_ofList_toDigits, String.toList_ofList]

theorem toList_formatUint (n : UInt64) : (formatUint n).toList = Nat.toDigits 10 n.toNat :=
  toList_toString n.toNat

theorem formatUint_ne_empty (n : UInt64) : formatUint n ≠ "" := by
  intro h
  simpa [h] using (toList_formatUint n).symm

@[simp] theorem parseUint_formatUint (n : UInt64) : parseUint (formatUint n) = n := by
  rw [parseUint, toList_formatUint, scanNonempty_toDigits n.toNat_lt]
  simp

theorem parseInt_digits (hlist : text.toList = Nat.toDigits 10 n) (h : n < 2 ^ 64) :
    parseInt text = Int64.ofInt (min n (2 ^ 63 - 1)) := by
  have hsign : ∀ c ∈ text.toList, c.isDigit := by
    rw [hlist]
    exact fun c hc => Nat.isDigit_of_mem_toDigits (by decide) (by decide) hc
  have hscan := scanNonempty_toDigits h
  rw [← hlist] at hscan
  unfold parseInt
  split
  next neg digits hmatch =>
    split at hmatch
    next cs heq => exact absurd (hsign '+' (heq ▸ List.mem_cons_self)) (by decide)
    next cs heq => exact absurd (hsign '-' (heq ▸ List.mem_cons_self)) (by decide)
    next =>
      cases hmatch
      simp [hscan]

theorem toList_formatInt_ofNat (hn : Int64.toInt n = Int.ofNat m) :
    (formatInt n).toList = Nat.toDigits 10 m := by
  rw [formatInt, hn]
  show (Nat.repr m).toList = _
  rw [Nat.repr_eq_ofList_toDigits, String.toList_ofList]

theorem toList_formatInt_negSucc (hn : Int64.toInt n = Int.negSucc m) :
    (formatInt n).toList = '-' :: Nat.toDigits 10 (m + 1) := by
  rw [formatInt, hn]
  show ("-" ++ Nat.repr (m + 1)).toList = _
  simp [String.toList_append, Nat.repr_eq_ofList_toDigits]

theorem formatInt_ne_empty (n : Int64) : formatInt n ≠ "" := by
  intro h
  cases hn : n.toInt with
  | ofNat m => simpa [h] using (toList_formatInt_ofNat hn).symm
  | negSucc m => simpa [h] using (toList_formatInt_negSucc hn).symm

@[simp] theorem parseInt_formatInt (n : Int64) : parseInt (formatInt n) = n := by
  have hmin : -2 ^ 63 ≤ n.toInt := n.le_toInt
  have hmax : n.toInt < 2 ^ 63 := n.toInt_lt
  have hback : Int64.ofInt n.toInt = n := Int64.ofInt_toInt n
  cases hn : n.toInt with
  | ofNat m =>
    have hlist := toList_formatInt_ofNat hn
    rw [hn, Int.ofNat_eq_natCast] at hmax hback
    rw [parseInt_digits hlist (by omega), Int.min_eq_left (by omega), hback]
  | negSucc m =>
    rw [hn, Int.negSucc_eq] at hmin hback
    rw [parseInt, toList_formatInt_negSucc hn]
    simp only [scanNonempty_toDigits (show m + 1 < 2 ^ 64 by omega), if_true]
    rw [Nat.min_eq_left (by omega)]
    exact hback

@[simp] theorem parseInt?_formatInt (n : Int64) : parseInt? (formatInt n).toList = some n := by
  have hmin : -2 ^ 63 ≤ n.toInt := n.le_toInt
  have hmax : n.toInt < 2 ^ 63 := n.toInt_lt
  have hback : Int64.ofInt n.toInt = n := Int64.ofInt_toInt n
  cases hn : n.toInt with
  | ofNat m =>
    rw [hn, Int.ofNat_eq_natCast] at hmax hback
    have hm : m < 2 ^ 63 := by omega
    have hscan := scanNonempty_toDigits (Nat.lt_trans hm (by decide))
    have hsign : ∀ c ∈ Nat.toDigits 10 m, c.isDigit := fun c hc =>
      Nat.isDigit_of_mem_toDigits (by decide) (by decide) hc
    rw [toList_formatInt_ofNat hn]
    unfold parseInt?
    split
    next cs heq => exact absurd (hsign '+' (heq ▸ List.mem_cons_self)) (by decide)
    next cs heq => exact absurd (hsign '-' (heq ▸ List.mem_cons_self)) (by decide)
    next => rw [hscan, Option.bind_some, parseInt?.positive, if_pos hm, hback]
  | negSucc m =>
    rw [hn, Int.negSucc_eq] at hmin hback
    have hm : m + 1 ≤ 2 ^ 63 := by omega
    rw [toList_formatInt_negSucc hn]
    simp only [parseInt?, scanNonempty_toDigits (show m + 1 < 2 ^ 64 by omega),
      Option.bind_some, if_pos hm]
    exact congrArg some hback

theorem length_formatInt_le (n : Int64) : (formatInt n).toList.length ≤ 20 := by
  have hmin : -2 ^ 63 ≤ n.toInt := n.le_toInt
  have hmax : n.toInt < 2 ^ 63 := n.toInt_lt
  have hdigits : ∀ m : Nat, m < 10 ^ 19 → (Nat.toDigits 10 m).length ≤ 19 := fun m hm =>
    (Nat.length_toDigits_le_iff (by decide) (by decide)).mpr hm
  cases hn : n.toInt with
  | ofNat m =>
    rw [hn, Int.ofNat_eq_natCast] at hmax
    rw [toList_formatInt_ofNat hn]
    exact Nat.le_trans (hdigits m (by omega)) (by decide)
  | negSucc m =>
    rw [hn, Int.negSucc_eq] at hmin
    rw [toList_formatInt_negSucc hn, List.length_cons]
    exact Nat.succ_le_succ (hdigits (m + 1) (by omega))

theorem utf8ByteSize_toString (n : Nat) :
    (toString n).utf8ByteSize = (Nat.toDigits 10 n).length := by
  have hdigit : ∀ c : Char, c.isDigit → c.utf8Size = 1 := by
    intro c hc
    rw [Char.isDigit, Bool.and_eq_true, decide_eq_true_eq, decide_eq_true_eq] at hc
    exact Char.utf8Size_eq_one_iff.mpr (UInt32.le_trans hc.2 (by decide))
  have hlen : ∀ cs : List Char, (∀ c ∈ cs, c.isDigit) → String.utf8Len cs = cs.length := by
    intro cs hcs
    induction cs with
    | nil => rfl
    | cons c cs ih =>
      rw [String.utf8Len_cons, hdigit c (hcs c List.mem_cons_self)]
      rw [ih fun d hd => hcs d (List.mem_cons_of_mem c hd), List.length_cons]
  rw [Nat.toString_eq_repr, Nat.repr_eq_ofList_toDigits, String.utf8ByteSize_ofList]
  exact hlen _ fun c hc => Nat.isDigit_of_mem_toDigits (by decide) (by decide) hc

theorem utf8ByteSize_toString_lt (h : 1 < n) : (toString n).utf8ByteSize < n := by
  obtain ⟨k, rfl⟩ : ∃ k, n = k + 2 := ⟨n - 2, by omega⟩
  have hpow : k < 10 ^ k := Nat.lt_pow_self (by decide)
  have hlen : (Nat.toDigits 10 (k + 2)).length ≤ k + 1 :=
    (Nat.length_toDigits_le_iff (by decide) (Nat.succ_pos k)).mpr (by rw [Nat.pow_succ]; omega)
  rw [utf8ByteSize_toString]
  omega

theorem utf8ByteSize_toString_pos (n : Nat) : 0 < (toString n).utf8ByteSize := by
  rw [utf8ByteSize_toString]
  exact List.length_pos_iff.mpr Nat.toDigits_ne_nil

end Cardwar.Strconv
