import Mathlib.Tactic.Linarith
import Mathlib.Data.Nat.Log
import ProxySession.Foreign.Value

/-!
# Integers among the numbers

A positive integer of at most 53 bits is a binary64 number exactly, so two of them are equal as numbers
only if they are equal.
-/

namespace ProxySession

namespace Binary64

variable {n : Nat}

/-- The fraction bits of an integer: what follows its leading digit, moved up to the top. -/
def fractionOf (n : Nat) : Nat := (n - 2 ^ n.log2) * 2 ^ (52 - n.log2)

theorem log2_le (hn : n ≤ 2 ^ 53) : n.log2 ≤ 53 := by
  by_contra hl
  have h54 : 2 ^ 54 ≤ 2 ^ n.log2 := Nat.pow_le_pow_right (by decide) (by omega)
  have h0 : n ≠ 0 := by
    rintro rfl
    simp at hl
  have hself := Nat.log2_self_le h0
  omega

theorem eq_of_log2 (h0 : n ≠ 0) (hn : n ≤ 2 ^ 53) (hl : 53 ≤ n.log2) : n = 2 ^ 53 := by
  have hself := Nat.log2_self_le h0
  rw [Nat.le_antisymm (log2_le hn) hl] at hself
  omega

theorem leading_shifted (hl : n.log2 < 53) : 2 ^ n.log2 * 2 ^ (52 - n.log2) = 2 ^ 52 := by
  rw [← Nat.pow_add]
  congr 1
  omega

/-- An integer moved up to the top is its leading digit and the fraction bits. -/
theorem shifted_eq (h0 : n ≠ 0) (hl : n.log2 < 53) : n * 2 ^ (52 - n.log2) = 2 ^ 52 + fractionOf n := by
  have hself := Nat.log2_self_le h0
  rw [fractionOf, ← leading_shifted hl, ← Nat.add_mul]
  congr 1
  omega

theorem fractionOf_lt (h0 : n ≠ 0) (hn : n ≤ 2 ^ 53) : fractionOf n < 2 ^ 52 := by
  rcases Nat.lt_or_ge n.log2 53 with hl | hl
  · have hlt : n < 2 ^ (n.log2 + 1) := Nat.lt_log2_self
    have hself := Nat.log2_self_le h0
    rw [fractionOf, ← leading_shifted hl]
    refine Nat.mul_lt_mul_of_pos_right ?_ (Nat.two_pow_pos _)
    rw [Nat.pow_succ] at hlt
    omega
  · rw [eq_of_log2 h0 hn hl]
    decide +kernel

theorem ofInt_bits (h0 : n ≠ 0) (hn : n ≤ 2 ^ 53) :
    (ofInt n).bits.toNat = (n.log2 + 1023) * 2 ^ 52 + fractionOf n := by
  have hf := fractionOf_lt h0 hn
  have hl := log2_le hn
  have hneg : ¬((n : Int) < 0) := by omega
  have hsum : (n.log2 + 1023) * 2 ^ 52 + fractionOf n < 2 ^ 64 := by omega
  rw [ofInt]
  simp only [Int.natAbs_natCast, if_neg h0, if_neg hneg, Nat.zero_add]
  rw [UInt64.toNat_ofNat']
  exact Nat.mod_eq_of_lt hsum

theorem exponentField_ofInt (h0 : n ≠ 0) (hn : n ≤ 2 ^ 53) :
    (ofInt n).exponentField = n.log2 + 1023 := by
  have hf := fractionOf_lt h0 hn
  have hl := log2_le hn
  rw [exponentField, ofInt_bits h0 hn]
  simp only [Nat.pow_eq]
  omega

theorem fractionField_ofInt (h0 : n ≠ 0) (hn : n ≤ 2 ^ 53) :
    (ofInt n).fractionField = fractionOf n := by
  have hf := fractionOf_lt h0 hn
  rw [fractionField, ofInt_bits h0 hn]
  simp only [Nat.pow_eq]
  omega

theorem isNegative_ofInt (h0 : n ≠ 0) (hn : n ≤ 2 ^ 53) : (ofInt n).isNegative = false := by
  have hf := fractionOf_lt h0 hn
  have hl := log2_le hn
  rw [isNegative, ofInt_bits h0 hn]
  simp only [Nat.pow_eq, decide_eq_false_iff_not]
  omega

theorem isFinite_ofInt (h0 : n ≠ 0) (hn : n ≤ 2 ^ 53) : (ofInt n).isFinite = true := by
  have hl := log2_le hn
  rw [isFinite, exponentField_ofInt h0 hn]
  simp only [bne_iff_ne]
  omega

theorem isNaN_ofInt (h0 : n ≠ 0) (hn : n ≤ 2 ^ 53) : (ofInt n).isNaN = false := by
  have hl := log2_le hn
  have he : (ofInt n).exponentField ≠ 2047 := by
    rw [exponentField_ofInt h0 hn]
    omega
  simp [isNaN, he]

/-- The integer is its significand with the exponent taken off. -/
theorem magnitude_ofInt (h0 : n ≠ 0) (hn : n ≤ 2 ^ 53) : (ofInt n).magnitude? = some n := by
  have hl := log2_le hn
  have hexp : (ofInt n).exponent = (n.log2 : Int) - 52 := by
    rw [exponent, exponentField_ofInt h0 hn, if_neg (by omega)]
    omega
  have hsig : (ofInt n).significand = 2 ^ 52 + fractionOf n := by
    rw [significand, exponentField_ofInt h0 hn, fractionField_ofInt h0 hn, if_neg (by omega)]
    rfl
  rw [magnitude?, hexp, hsig]
  simp only [Nat.pow_eq]
  rcases Nat.lt_trichotomy n.log2 52 with hk | hk | hk
  · have hshift : (-((n.log2 : Int) - 52)).toNat = 52 - n.log2 := by omega
    rw [if_neg (by omega), hshift, ← shifted_eq h0 (by omega), if_pos (Nat.mul_mod_left _ _),
      Nat.mul_div_cancel _ (Nat.two_pow_pos _)]
  · rw [if_pos (by omega), ← shifted_eq h0 (by omega), hk]
    simp
  · rw [eq_of_log2 h0 hn hk]
    decide +kernel

/-- A positive integer of at most 53 bits is a number exactly. -/
theorem toInt_ofInt (h0 : n ≠ 0) (hn : n ≤ 2 ^ 53) : (ofInt n).toInt? = some n := by
  simp [toInt?, isFinite_ofInt h0 hn, magnitude_ofInt h0 hn, isNegative_ofInt h0 hn]

theorem numEq_ofInt {m : Nat} (hm0 : m ≠ 0) (hm : m ≤ 2 ^ 53) (h0 : n ≠ 0) (hn : n ≤ 2 ^ 53) :
    (ofInt m).numEq (ofInt n) = decide (m = n) := by
  by_cases heq : m = n
  · subst heq
    simp [numEq, isNaN_ofInt h0 hn]
  · have hbits : (ofInt m).bits ≠ (ofInt n).bits := fun hb => by
      have hx : ofInt m = ofInt n := congrArg Binary64.mk hb
      have hi := toInt_ofInt hm0 hm
      rw [hx, toInt_ofInt h0 hn] at hi
      exact heq (by simpa using hi.symm)
    simp [numEq, isNaN_ofInt h0 hn, isNaN_ofInt hm0 hm, hbits, heq, toInt_ofInt hm0 hm, hm0]

end Binary64

/-- A positive integer of at most 53 bits is read as the number that it was written as. -/
theorem Value.number_ofBinary64_ofInt {n : Nat} (h0 : n ≠ 0) (hn : n ≤ 2 ^ 53) :
    (Value.ofBinary64 (.ofInt n)).number? = some (.ofInt n) := by
  rw [ofBinary64, Binary64.toInt_ofInt h0 hn]
  split
  · next k hk =>
    obtain rfl : (n : Int) = k := by simpa using hk
    split
    · next hrange =>
      rw [number?, Int32.toInt_ofInt_of_le hrange.1 hrange.2.1]
    · rfl
  · next hk => cases hk

end ProxySession
