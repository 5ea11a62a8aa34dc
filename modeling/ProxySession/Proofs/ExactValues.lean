import Mathlib.Algebra.Order.Field.Power
import Mathlib.Algebra.Order.Ring.Rat
import Mathlib.Tactic.FieldSimp
import Mathlib.Tactic.Linarith
import Mathlib.Tactic.Positivity
import Mathlib.Tactic.Ring
import ProxySession.Session.Conversion

/-!
# Exact values of numbers

A finite number stands for a rational number, which its sign, exponent and fraction fields give. The
decisions on integrality and range that conversions make are decisions on this value: which
representation a number has, and which of several bit patterns, makes no difference.
-/

namespace ProxySession

namespace Binary64

variable {x : Binary64} {n : ℤ}

/-- The rational number that the fields stand for: a fraction of `2 ^ 52`, after a leading one unless
the exponent field is zero. The largest exponent field is for what has no such value. -/
def value? (x : Binary64) : Option ℚ :=
  let sign : ℚ := if x.isNegative then -1 else 1
  let fraction : ℚ := x.fractionField / 2 ^ 52
  if x.exponentField = 2047 then
    none
  else if x.exponentField = 0 then
    some (sign * fraction * 2 ^ (-1022 : ℤ))
  else
    some (sign * (1 + fraction) * 2 ^ ((x.exponentField : ℤ) - 1023))

/-- The magnitude of a finite number. -/
def magnitude (x : Binary64) : ℚ := x.significand * 2 ^ x.exponent

theorem magnitude_nonneg (x : Binary64) : 0 ≤ x.magnitude :=
  mul_nonneg (Nat.cast_nonneg _) (zpow_nonneg (by norm_num) _)

/-- Either form of the significand takes the 52 bits of the fraction off the exponent. -/
theorem value_of_isFinite (hx : x.isFinite = true) :
    x.value? = some (if x.isNegative then -x.magnitude else x.magnitude) := by
  have h2047 : x.exponentField ≠ 2047 := by simpa [isFinite] using hx
  have hshift (a : ℚ) (e : ℤ) : a * 2 ^ e = a * 2 ^ 52 * 2 ^ (e - 52) := by
    rw [mul_assoc, zpow_sub₀ two_ne_zero, zpow_ofNat, mul_div_cancel₀ _ (by norm_num)]
  have hfraction : (x.fractionField / 2 ^ 52 : ℚ) * 2 ^ 52 = x.fractionField :=
    div_mul_cancel₀ _ (by norm_num)
  have hsign (q : ℚ) : (if x.isNegative then -1 else 1) * q = if x.isNegative then -q else q := by
    split <;> ring
  rw [value?, magnitude, significand, exponent]
  by_cases h0 : x.exponentField = 0
  · have hexp : (-1022 : ℤ) - 52 = -1074 := by norm_num
    simp only [if_neg h2047, if_pos h0]
    rw [mul_assoc, hsign, hshift _ (-1022), hfraction, hexp]
  · have hexp : (x.exponentField : ℤ) - 1023 - 52 = (x.exponentField : ℤ) - 1075 := by omega
    simp only [if_neg h2047, if_neg h0]
    rw [mul_assoc, hsign, hshift _ ((x.exponentField : ℤ) - 1023), add_mul, hfraction, hexp, one_mul]
    push_cast [Nat.pow_eq]
    rfl

theorem value_eq_none : x.value? = none ↔ x.isFinite = false := by
  rcases hx : x.isFinite with _ | _
  · have h2047 : x.exponentField = 2047 := by simpa [isFinite] using hx
    simp [value?, h2047]
  · simp [value_of_isFinite hx]

/-- A significand moved to the right is an integer if no bit falls off. -/
theorem magnitude?_eq_some {m : Nat} : x.magnitude? = some m ↔ x.magnitude = m := by
  rw [magnitude?, magnitude]
  by_cases he : 0 ≤ x.exponent
  · have hpow : (2 : ℚ) ^ x.exponent = 2 ^ x.exponent.toNat := by
      rw [← zpow_natCast, Int.toNat_of_nonneg he]
    rw [if_pos he, hpow, Option.some_inj, Nat.pow_eq]
    norm_cast
  · obtain ⟨k, hk⟩ : ∃ k : Nat, x.exponent = -k := ⟨x.exponent.natAbs, by omega⟩
    have hneg : (-x.exponent).toNat = k := by omega
    have hpow : (2 : ℚ) ^ x.exponent = (2 ^ k)⁻¹ := by rw [hk, zpow_neg, zpow_natCast]
    have hpos : 0 < 2 ^ k := Nat.two_pow_pos k
    rw [if_neg he, hneg, hpow, Nat.pow_eq, ← div_eq_mul_inv, div_eq_iff (by positivity)]
    have hcast : (x.significand : ℚ) = m * 2 ^ k ↔ x.significand = m * 2 ^ k := by norm_cast
    rw [hcast]
    constructor
    · intro h
      split at h
      · next hmod =>
        obtain rfl := Option.some_inj.1 h
        exact (Nat.div_mul_cancel (Nat.dvd_of_mod_eq_zero hmod)).symm
      · cases h
    · intro h
      rw [h, if_pos (Nat.mul_mod_left _ _), Nat.mul_div_cancel _ hpos]

theorem toInt?_eq_magnitude? (hx : x.isFinite = true) :
    x.toInt? = some n ↔ ∃ m, x.magnitude? = some m ∧ (if x.isNegative then -(m : ℤ) else m) = n := by
  rw [toInt?, if_pos hx]
  rcases x.magnitude? with _ | m <;> simp

/-- The integer that a number is has the number's value. -/
theorem toInt?_eq_some : x.toInt? = some n ↔ x.value? = some (n : ℚ) := by
  rcases hx : x.isFinite with _ | _
  · simp [toInt?, hx, value_eq_none.2 hx]
  · have hnonneg := x.magnitude_nonneg
    simp only [toInt?_eq_magnitude? hx, value_of_isFinite hx, Option.some_inj, magnitude?_eq_some]
    constructor
    · rintro ⟨m, hm, rfl⟩
      rw [hm]
      split <;> push_cast <;> rfl
    · intro h
      -- The integer without its sign is the magnitude.
      refine ⟨n.natAbs, ?_, ?_⟩
      · rw [Nat.cast_natAbs, Int.cast_abs, ← h]
        split
        · rw [abs_neg, abs_of_nonneg hnonneg]
        · rw [abs_of_nonneg hnonneg]
      · split at h
        · have hle : n ≤ 0 := by
            have hq : (n : ℚ) ≤ 0 := by rw [← h]; exact neg_nonpos.2 hnonneg
            exact_mod_cast hq
          rw [if_pos ‹_›]
          omega
        · have hle : 0 ≤ n := by
            have hq : (0 : ℚ) ≤ n := by rw [← h]; exact hnonneg
            exact_mod_cast hq
          rw [if_neg ‹_›]
          omega

end Binary64

namespace Value

variable {v w : Value} {n : ℤ}

/-- A number, in either of the two representations. -/
inductive IsNumber : Value → Prop
  | int (n : Int32) : IsNumber (int n)
  | float (x : Binary64) : IsNumber (float x)

/-- The exact value of a number; what is not finite has none. -/
def rational? : Value → Option ℚ
  | int n => some n.toInt
  | float x => x.value?
  | _ => none

/-- The number is an integer from `-bound` up to `bound`. -/
def IsWithin (v : Value) (bound n : ℤ) : Prop := v.rational? = some (n : ℚ) ∧ -bound ≤ n ∧ n < bound

theorem IsWithin.mono {small large : ℤ} (h : v.IsWithin small n) (hle : small ≤ large) :
    v.IsWithin large n :=
  ⟨h.1, by linarith [h.2.1], by linarith [h.2.2]⟩

theorem IsWithin.congr {bound : ℤ} (he : w.rational? = v.rational?) :
    w.IsWithin bound n ↔ v.IsWithin bound n := by
  rw [IsWithin, IsWithin, he]

theorem exactInt?_eq_some : v.exactInt? = some n ↔ v.rational? = some (n : ℚ) := by
  cases v with
  | int m => simp [exactInt?, rational?]
  | float x => exact Binary64.toInt?_eq_some
  | _ => simp [exactInt?, rational?]

/-- A 32-bit integer is in range of itself, so that its representation decides nothing. -/
theorem exactInt32?_eq_some (hv : v.IsNumber) {m : Int32} :
    v.exactInt32? = some m ↔ v.IsWithin (2 ^ 31) m.toInt := by
  have hle := m.le_toInt
  have hlt := m.toInt_lt
  cases hv with
  | int k =>
    simp only [exactInt32?, IsWithin, rational?, Option.some_inj, Int.cast_inj, Int32.toInt_inj]
    exact ⟨fun h => ⟨h, hle, hlt⟩, And.left⟩
  | float x =>
    rw [exactInt32?, IsWithin, rational?, ← Binary64.toInt?_eq_some]
    rcases hx : x.toInt? with _ | n
    · simp
    · simp only [Option.some_inj]
      constructor
      · intro h
        split at h
        · next hn =>
          obtain rfl := Option.some_inj.1 h
          rw [Int32.toInt_ofInt_of_le hn.1 hn.2]
          exact ⟨rfl, hn⟩
        · cases h
      · rintro ⟨rfl, hn⟩
        exact (if_pos hn).trans (congrArg some (Int32.ofInt_toInt m))

theorem int64?_eq_some (hv : v.IsNumber) {m : Int64} :
    v.int64? = some m ↔ v.IsWithin (2 ^ 63) m.toInt := by
  have hle := m.le_toInt
  have hlt := m.toInt_lt
  rw [IsWithin, ← exactInt?_eq_some]
  rcases hx : v.exactInt? with _ | n
  · have hnone : v.int64? = none := by cases hv <;> simp only [int64?, hx]
    simp [hnone]
  · have hsome : v.int64? =
        if -0x8000000000000000 ≤ n ∧ n < 0x8000000000000000 then some (Int64.ofInt n) else none := by
      cases hv <;> simp only [int64?, hx]
    rw [hsome, Option.some_inj]
    constructor
    · intro h
      split at h
      · next hn =>
        obtain rfl := Option.some_inj.1 h
        rw [Int64.toInt_ofInt_of_le hn.1 hn.2]
        exact ⟨rfl, hn⟩
      · cases h
    · rintro ⟨rfl, hn⟩
      exact (if_pos hn).trans (congrArg some (Int64.ofInt_toInt m))

end Value

end ProxySession
