import Mathlib

/-!
# Binary floating point numbers

An integer is rounded to `p` significant bits: to the nearest integer that has no
more, and of two to the one with the even significand (`nearestEven_spec`). What
follows about rounding follows from that.

A finite binary64 number is a rational with a 53 bit significand. A conversion to
int64 drops the fraction. Where int64 does not have the result, the platform
decides. An int64 that becomes a binary64 number and is converted back is the
same exactly if it has at most 53 significant bits, or is so large that it leaves
the range and the platform happens to choose it (`toInt64_ofInt64`).
-/

namespace Cardwar

namespace Rounding

/-- An integer with at most `p` significant bits. -/
def Representable (p : ℕ) (n : ℤ) : Prop := ∃ (m : ℤ) (e : ℕ), m.natAbs < 2 ^ p ∧ n = m * 2 ^ e

/-- The multiple of `d` nearest to `n`; of two, the one with the even quotient. -/
def toMultiple (d n : ℕ) : ℕ :=
  if 2 * (n % d) < d ∨ 2 * (n % d) = d ∧ n / d % 2 = 0 then n / d * d else (n / d + 1) * d

/-- What the last of the first `p` bits of `n` is worth. -/
def ulp (p n : ℕ) : ℕ := 2 ^ (n.log2 + 1 - p)

def nearestEven (p : ℕ) (n : ℤ) : ℤ := n.sign * toMultiple (ulp p n.natAbs) n.natAbs

/-- `n` is rounded to `m`. A significand of `p` bits is even if `p - 1` bits are enough. -/
structure NearestEven (p : ℕ) (n m : ℤ) : Prop where
  representable : Representable p m
  nearest : ∀ k, Representable p k → (n - m).natAbs ≤ (n - k).natAbs
  even : ∀ k, Representable p k → k ≠ m → (n - k).natAbs = (n - m).natAbs → Representable (p - 1) m

theorem Representable.neg (h : Representable p n) : Representable p (-n) := by
  obtain ⟨m, e, hm, rfl⟩ := h
  exact ⟨-m, e, by rwa [Int.natAbs_neg], (neg_mul _ _).symm⟩

theorem representable_pow (hp : 0 < p) (e : ℕ) : Representable p (2 ^ e) :=
  ⟨1, e, Nat.one_lt_two_pow hp.ne', (one_mul _).symm⟩

theorem representable_mul {m : ℕ} (hp : 0 < p) (hm : m ≤ 2 ^ p) (e : ℕ) :
    Representable p (m * 2 ^ e : ℕ) := by
  rcases hm.lt_or_eq with hlt | rfl
  · exact ⟨m, e, hlt, by push_cast; rfl⟩
  · rw [← pow_add]
    exact_mod_cast representable_pow hp (p + e)

theorem representable_of_le (hp : 0 < p) (hn : n.natAbs ≤ 2 ^ p) : Representable p n := by
  obtain ⟨m, rfl | rfl⟩ := n.eq_nat_or_neg
  · simpa using representable_mul hp hn 0
  · rw [Int.natAbs_neg] at hn
    simpa using (representable_mul hp hn 0).neg

theorem Representable.dvd (h : Representable p n) (hn : 2 ^ (p + e - 1) ≤ n.natAbs) :
    2 ^ e ∣ n := by
  obtain ⟨m, f, hm, rfl⟩ := h
  have hlt : 2 ^ (p + e - 1) < 2 ^ (p + f) :=
    calc 2 ^ (p + e - 1) ≤ m.natAbs * 2 ^ f := by simpa [Int.natAbs_mul, Int.natAbs_pow] using hn
      _ < 2 ^ p * 2 ^ f := Nat.mul_lt_mul_of_pos_right hm (Nat.two_pow_pos f)
      _ = 2 ^ (p + f) := (pow_add 2 p f).symm
  have hexp := (Nat.pow_lt_pow_iff_right (by decide)).mp hlt
  exact Dvd.dvd.mul_left (pow_dvd_pow 2 (by omega)) m

theorem ulp_pos (p n : ℕ) : 0 < ulp p n := Nat.two_pow_pos _

theorem div_ulp_lt (p n : ℕ) : n / ulp p n < 2 ^ p := by
  rw [Nat.div_lt_iff_lt_mul (ulp_pos p n), ulp, ← pow_add]
  exact Nat.lt_log2_self.trans_le (Nat.pow_le_pow_right (by decide) (by omega))

theorem Representable.le_or_ge (h : Representable p k) (hp : 0 < p) (n : ℕ) :
    k ≤ (n / ulp p n * ulp p n : ℕ) ∨ ((n / ulp p n * ulp p n + ulp p n : ℕ) : ℤ) ≤ k := by
  by_cases hbits : n.log2 + 1 ≤ p
  · have hone : ulp p n = 1 := by rw [ulp, Nat.sub_eq_zero_of_le hbits, pow_zero]
    rw [hone]
    omega
  · by_contra hbetween
    obtain ⟨hlow, hhigh⟩ := not_or.mp hbetween
    have hne : n ≠ 0 := by
      rintro rfl
      rw [Nat.log2_zero] at hbits
      omega
    have hexp : p + (n.log2 + 1 - p) - 1 = n.log2 := by omega
    -- The lower multiple has the same leading bit as `n`, so `k` has it too.
    have hlead : 2 ^ n.log2 ≤ n / ulp p n * ulp p n := by
      have hsplit : 2 ^ n.log2 = 2 ^ (p - 1) * ulp p n := by
        rw [ulp, ← pow_add]
        congr 1
        omega
      rw [hsplit]
      refine Nat.mul_le_mul_right _ ((Nat.le_div_iff_mul_le (ulp_pos p n)).mpr ?_)
      exact hsplit ▸ Nat.log2_self_le hne
    obtain ⟨c, rfl⟩ := h.dvd (e := n.log2 + 1 - p) (by rw [hexp]; omega)
    have hulp : (2 : ℤ) ^ (n.log2 + 1 - p) = (ulp p n : ℤ) := by simp [ulp]
    have hnonneg : (0 : ℤ) ≤ ulp p n := Int.natCast_nonneg _
    rw [hulp, not_le] at hlow hhigh
    have hless : ((n / ulp p n : ℕ) : ℤ) < c := by
      refine lt_of_mul_lt_mul_left ?_ hnonneg
      rwa [mul_comm, ← Int.natCast_mul]
    have hmore : c < (n / ulp p n : ℕ) + 1 := by
      refine lt_of_mul_lt_mul_left ?_ hnonneg
      rwa [mul_add, mul_one,
        mul_comm (ulp p n : ℤ) (n / ulp p n : ℕ), ← Int.natCast_mul, ← Int.natCast_add]
    omega

theorem toMultiple_cases (d n : ℕ) :
    (toMultiple d n = n / d * d ∧ (2 * (n % d) < d ∨ 2 * (n % d) = d ∧ n / d % 2 = 0)) ∨
      (toMultiple d n = n / d * d + d ∧ (d < 2 * (n % d) ∨ 2 * (n % d) = d ∧ n / d % 2 = 1)) := by
  unfold toMultiple
  split
  next h => exact .inl ⟨rfl, h⟩
  next h => exact .inr ⟨Nat.succ_mul _ _, by omega⟩

theorem representable_even (hp : 2 ≤ p) {q : ℕ} (hq : q ≤ 2 ^ p) (heven : q % 2 = 0) (e : ℕ) :
    Representable (p - 1) (q * 2 ^ e : ℕ) := by
  have hhalf : q * 2 ^ e = q / 2 * 2 ^ (e + 1) := by
    rw [pow_succ, mul_comm (2 ^ e), ← mul_assoc]
    congr 1
    omega
  rw [hhalf]
  refine representable_mul (by omega) ?_ (e + 1)
  rw [Nat.div_le_iff_le_mul_add_pred two_pos, ← pow_succ', Nat.sub_add_cancel (by omega)]
  omega

theorem nearestEven_natCast (p n : ℕ) : nearestEven p n = toMultiple (ulp p n) n := by
  rcases Nat.eq_zero_or_pos n with rfl | hn
  · simp [nearestEven, toMultiple, ulp_pos]
  · rw [nearestEven, Int.sign_eq_one_of_pos (by exact_mod_cast hn), one_mul, Int.natAbs_natCast]

theorem nearestEven_neg (p : ℕ) (n : ℤ) : nearestEven p (-n) = -nearestEven p n := by
  rw [nearestEven, nearestEven, Int.sign_neg, Int.natAbs_neg, neg_mul]

theorem NearestEven.neg (h : NearestEven p n m) : NearestEven p (-n) (-m) := by
  have hdist : ∀ k : ℤ, (-n - k).natAbs = (n - -k).natAbs := fun k => by omega
  refine ⟨h.representable.neg, fun k hk => ?_, fun k hk hne htie => ?_⟩
  · rw [hdist, hdist, neg_neg]
    exact h.nearest (-k) hk.neg
  · rw [hdist, hdist, neg_neg] at htie
    exact (h.even (-k) hk.neg (fun heq => hne (by rw [← heq, neg_neg])) htie).neg

theorem nearestEven_nat (hp : 2 ≤ p) (n : ℕ) : NearestEven p n (nearestEven p n) := by
  rw [nearestEven_natCast]
  have hlt := div_ulp_lt p n
  have hmod := Nat.mod_lt n (ulp_pos p n)
  have hdiv := Nat.div_add_mod' n (ulp p n)
  have hside : ∀ k, Representable p k → _ := fun k hk => hk.le_or_ge (by omega) n
  rcases toMultiple_cases (ulp p n) n with ⟨heq, hrem⟩ | ⟨heq, hrem⟩
  · rw [heq]
    refine ⟨representable_mul (by omega) hlt.le _, fun k hk => ?_, fun k hk hne htie => ?_⟩
    · have hk := hside k hk
      omega
    · -- The other candidate is the multiple above.
      have hk := hside k hk
      exact representable_even hp hlt.le (by omega) _
  · have hsucc : n / ulp p n * ulp p n + ulp p n = (n / ulp p n + 1) * ulp p n :=
      (Nat.succ_mul _ _).symm
    rw [heq]
    refine ⟨hsucc ▸ representable_mul (by omega) hlt _, fun k hk => ?_, fun k hk hne htie => ?_⟩
    · have hk := hside k hk
      omega
    · have hk := hside k hk
      exact hsucc ▸ representable_even hp hlt (by omega) _

theorem nearestEven_spec (hp : 2 ≤ p) (n : ℤ) : NearestEven p n (nearestEven p n) := by
  obtain ⟨n, rfl | rfl⟩ := n.eq_nat_or_neg
  · exact nearestEven_nat hp n
  · rw [nearestEven_neg]
    exact (nearestEven_nat hp n).neg

theorem NearestEven.le (h : NearestEven p n m) (hk : Representable p k) (hle : n ≤ k) : m ≤ k := by
  have hnear := h.nearest k hk
  omega

theorem NearestEven.ge (h : NearestEven p n m) (hk : Representable p k) (hle : k ≤ n) : k ≤ m := by
  have hnear := h.nearest k hk
  omega

theorem NearestEven.eq_self_iff (h : NearestEven p n m) : m = n ↔ Representable p n := by
  constructor
  · rintro rfl
    exact h.representable
  · intro hn
    have hnear := h.nearest n hn
    omega

end Rounding

open Rounding

/-- A finite binary64 number by its value. The two zeros have one value. -/
structure Float64 where
  val : ℚ
  finite : ∃ m e : ℤ, m.natAbs < 2 ^ 53 ∧ -1074 ≤ e ∧ e ≤ 971 ∧ val = m * 2 ^ e

namespace Float64

theorem finite_of_representable (h : Representable 53 n) (hn : n.natAbs ≤ 2 ^ 63) :
    ∃ m e : ℤ, m.natAbs < 2 ^ 53 ∧ -1074 ≤ e ∧ e ≤ 971 ∧ (n : ℚ) = m * 2 ^ e := by
  obtain ⟨m, e, hm, rfl⟩ := h
  by_cases hzero : m = 0
  · exact ⟨0, 0, by decide, by decide, by decide, by simp [hzero]⟩
  · have hpow : 2 ^ e ≤ 2 ^ 63 := by
      rw [Int.natAbs_mul, Int.natAbs_pow] at hn
      exact (Nat.le_mul_of_pos_left _ (Int.natAbs_pos.mpr hzero)).trans hn
    have hexp := (Nat.pow_le_pow_iff_right (by decide)).mp hpow
    exact ⟨m, e, hm, by omega, by omega, by push_cast; rfl⟩

theorem nearestEven_int64 (n : Int64) : NearestEven 53 n.toInt (nearestEven 53 n.toInt) :=
  nearestEven_spec (by decide) n.toInt

theorem nearestEven_bounds (n : Int64) :
    -2 ^ 63 ≤ nearestEven 53 n.toInt ∧ nearestEven 53 n.toInt ≤ 2 ^ 63 := by
  have hpow : Representable 53 (2 ^ 63) := representable_pow (by decide) 63
  exact ⟨(nearestEven_int64 n).ge hpow.neg n.le_toInt, (nearestEven_int64 n).le hpow n.toInt_lt.le⟩

theorem natAbs_nearestEven_le (n : Int64) : (nearestEven 53 n.toInt).natAbs ≤ 2 ^ 63 := by
  have hbounds := nearestEven_bounds n
  omega

def ofInt64 (n : Int64) : Float64 where
  val := nearestEven 53 n.toInt
  finite := finite_of_representable (nearestEven_int64 n).representable (natAbs_nearestEven_le n)

def trunc (x : Float64) : ℤ := if x.val < 0 then ⌈x.val⌉ else ⌊x.val⌋

def toInt64 (outOfRange : ℤ → Int64) (x : Float64) : Int64 :=
  if -2 ^ 63 ≤ x.trunc ∧ x.trunc < 2 ^ 63 then .ofInt x.trunc else outOfRange x.trunc

theorem ofInt64_ne_zero (h : n ≠ 0) : (ofInt64 n).val ≠ 0 := by
  have hone : Representable 53 1 := representable_pow (by decide) 0
  have hround := nearestEven_int64 n
  have hne : n.toInt ≠ 0 := fun heq => h (Int64.toInt_inj.mp heq)
  refine Int.cast_ne_zero.mpr fun heq => ?_
  rcases lt_or_gt_of_ne hne with hneg | hpos
  · have hle := hround.le hone.neg (by omega)
    omega
  · have hge := hround.ge hone (by omega)
    omega

theorem trunc_ofInt64 (n : Int64) : (ofInt64 n).trunc = nearestEven 53 n.toInt := by
  rw [trunc, ofInt64, Int.ceil_intCast, Int.floor_intCast, ite_self]

theorem nearestEven_eq_pow_iff (n : Int64) :
    nearestEven 53 n.toInt = 2 ^ 63 ↔ 2 ^ 63 - 512 ≤ n.toInt := by
  have hround := nearestEven_int64 n
  have hlt := n.toInt_lt
  -- The number below 2^63; its significand is odd.
  have hbelow : Representable 53 (2 ^ 63 - 1024) := ⟨2 ^ 53 - 1, 10, by decide, by norm_num⟩
  have htop : Representable 53 (2 ^ 63) := representable_pow (by decide) 63
  constructor
  · intro heq
    have hnear := hround.nearest _ hbelow
    rw [heq] at hnear
    by_contra hsmall
    by_cases hle : n.toInt ≤ 2 ^ 63 - 1024
    · have := hround.le hbelow hle
      omega
    · omega
  · intro hlarge
    have hge := hround.ge hbelow (by omega)
    have hle := hround.le htop hlt.le
    have hdvd : 2 ^ 10 ∣ nearestEven 53 n.toInt := hround.representable.dvd (by omega)
    by_contra hne
    have heq : nearestEven 53 n.toInt = 2 ^ 63 - 1024 := by omega
    rw [heq] at hround
    have hnear := hround.nearest _ htop
    have heven : Representable 52 (2 ^ 63 - 1024) := hround.even _ htop (by decide) (by omega)
    have hmore : (2 : ℤ) ^ 11 ∣ 2 ^ 63 - 1024 := heven.dvd (by decide)
    omega

theorem toInt64_ofInt64 (outOfRange : ℤ → Int64) (n : Int64) :
    toInt64 outOfRange (ofInt64 n) = n ↔
      Representable 53 n.toInt ∨ 2 ^ 63 - 512 ≤ n.toInt ∧ outOfRange (2 ^ 63) = n := by
  obtain ⟨hge, hle⟩ := nearestEven_bounds n
  rw [toInt64, trunc_ofInt64, ← (nearestEven_int64 n).eq_self_iff, ← nearestEven_eq_pow_iff]
  by_cases htop : nearestEven 53 n.toInt = 2 ^ 63
  · have hne : (2 : ℤ) ^ 63 ≠ n.toInt := n.toInt_lt.ne'
    rw [if_neg (by omega), htop, or_iff_right hne, and_iff_right rfl]
  · have hlt : nearestEven 53 n.toInt < 2 ^ 63 := lt_of_le_of_ne hle htop
    rw [if_pos ⟨hge, hlt⟩, ← Int64.toInt_inj, Int64.toInt_ofInt_of_le hge hlt]
    exact (or_iff_left fun hleft => htop hleft.1).symm

end Float64

end Cardwar
