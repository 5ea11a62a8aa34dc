import ProxySession.Foreign.Tokenizer
import ProxySession.Numeric.Rounding
import ProxySession.Proofs.ExactValues
import ProxySession.Proofs.Integers

/-!
# Positions of a scanner

A scanner counts on from the position that it was given: in 32-bit integers as long as they last, and in
binary64 numbers after that. Either way a position below `2 ^ 53` stands for one integer, and moving on adds
to this integer exactly.
-/

namespace ProxySession

namespace Binary64

variable {n : Nat}

/-! ## Integers with a sign -/

/-- The opposite of an integer differs in the sign bit. -/
theorem ofInt_neg_bits (h0 : n ≠ 0) (hn : n ≤ 2 ^ 53) :
    (ofInt (-(n : ℤ))).bits.toNat = 2 ^ 63 + (ofInt n).bits.toNat := by
  have hf := fractionOf_lt h0 hn
  have hl := log2_le hn
  have hneg : -(n : ℤ) < 0 := by omega
  have hsum : 2 ^ 63 + (n.log2 + 1023) * 2 ^ 52 + fractionOf n < 2 ^ 64 := by omega
  rw [ofInt_bits h0 hn, ofInt]
  simp only [Int.natAbs_neg, Int.natAbs_natCast, if_neg h0, if_pos hneg]
  rw [UInt64.toNat_ofNat', ← Nat.add_assoc]
  exact Nat.mod_eq_of_lt hsum

theorem exponentField_neg (h0 : n ≠ 0) (hn : n ≤ 2 ^ 53) :
    (ofInt (-(n : ℤ))).exponentField = (ofInt n).exponentField := by
  have hf := fractionOf_lt h0 hn
  have hl := log2_le hn
  rw [exponentField, exponentField, ofInt_neg_bits h0 hn, ofInt_bits h0 hn]
  simp only [Nat.pow_eq]
  omega

theorem fractionField_neg (h0 : n ≠ 0) (hn : n ≤ 2 ^ 53) :
    (ofInt (-(n : ℤ))).fractionField = (ofInt n).fractionField := by
  rw [fractionField, fractionField, ofInt_neg_bits h0 hn]
  simp only [Nat.pow_eq]
  omega

theorem isNegative_neg (h0 : n ≠ 0) (hn : n ≤ 2 ^ 53) : (ofInt (-(n : ℤ))).isNegative = true := by
  rw [isNegative, ofInt_neg_bits h0 hn]
  simp only [Nat.pow_eq, decide_eq_true_eq]
  omega

theorem significand_neg (h0 : n ≠ 0) (hn : n ≤ 2 ^ 53) :
    (ofInt (-(n : ℤ))).significand = (ofInt n).significand := by
  rw [significand, significand, exponentField_neg h0 hn, fractionField_neg h0 hn]

theorem exponent_neg (h0 : n ≠ 0) (hn : n ≤ 2 ^ 53) :
    (ofInt (-(n : ℤ))).exponent = (ofInt n).exponent := by
  rw [exponent, exponent, exponentField_neg h0 hn]

theorem isFinite_neg (h0 : n ≠ 0) (hn : n ≤ 2 ^ 53) : (ofInt (-(n : ℤ))).isFinite = true := by
  rw [isFinite, exponentField_neg h0 hn]
  exact isFinite_ofInt h0 hn

/-- An integer of at most 53 bits is a number exactly, whatever its sign. -/
theorem toInt_ofInt_neg (hn : n ≤ 2 ^ 53) : (ofInt (-(n : ℤ))).toInt? = some (-(n : ℤ)) := by
  rcases Nat.eq_zero_or_pos n with rfl | hpos
  · decide +kernel
  · have h0 : n ≠ 0 := by omega
    have hmag : (ofInt (-(n : ℤ))).magnitude? = (ofInt n).magnitude? := by
      rw [magnitude?, magnitude?, exponent_neg h0 hn, significand_neg h0 hn]
    simp [toInt?, isFinite_neg h0 hn, hmag, magnitude_ofInt h0 hn, isNegative_neg h0 hn]

/-- What is below zero is below every natural number. -/
theorem compareInt_of_neg (h0 : n ≠ 0) (hn : n ≤ 2 ^ 53) (m : Nat) :
    (ofInt (-(n : ℤ))).compareInt? m = some .lt := by
  have hnan : (ofInt (-(n : ℤ))).isNaN = false := by
    have hfinite := isFinite_neg h0 hn
    simp only [isFinite, bne_iff_ne] at hfinite
    simp [isNaN, hfinite]
  have hpos : 0 < (ofInt n).significand := by
    rw [significand, exponentField_ofInt h0 hn, if_neg (by omega)]
    exact Nat.add_pos_left (Nat.two_pow_pos 52) _
  rw [compareInt?, hnan, isFinite_neg h0 hn, if_neg (by decide), if_pos rfl, signedSignificand,
    isNegative_neg h0 hn, if_pos rfl, significand_neg h0 hn, Option.some_inj, compare_lt_iff_lt]
  simp only [Nat.pow_eq]
  calc -((ofInt n).significand : ℤ) * (2 ^ _ : ℕ) < 0 :=
        Int.mul_neg_of_neg_of_pos (by omega) (by positivity)
    _ ≤ m * (2 ^ _ : ℕ) := by positivity

/-! ## Sums of integers -/

/-- Rounding leaves an integer of at most 53 bits as it is. -/
theorem nearest_one (h0 : n ≠ 0) (hn : n ≤ 2 ^ 53) : nearest n 1 = ofInt n := by
  have hself := Nat.log2_self_le h0
  have hf := fractionOf_lt h0 hn
  have hlead : leadingPower n 1 = n.log2 := by
    have hone : (1 : Nat).log2 = 0 := by decide
    rw [leadingPower, hone]
    simp only [Nat.pow_eq]
    rw [if_neg]
    · omega
    · have hneg : (-((n.log2 : ℤ) - (0 : Nat))).toNat = 0 := by omega
      have hpos : ((n.log2 : ℤ) - (0 : Nat)).toNat = n.log2 := by omega
      rw [hneg, hpos]
      omega
  have hround (q : Nat) : roundDiv q 1 = q := by
    rw [roundDiv]
    simp [Nat.mod_one]
  rcases Nat.lt_or_ge n.log2 53 with hk | hk
  · have hunit : max ((n.log2 : ℤ) - 52) (-1074) = -((52 - n.log2 : Nat) : ℤ) := by omega
    have hbits : 2 ^ 52 + fractionOf n + (-((52 - n.log2 : Nat) : ℤ) + 1074).toNat * 2 ^ 52 =
        (ofInt n).bits.toNat := by
      have hexp : (-((52 - n.log2 : Nat) : ℤ) + 1074).toNat = n.log2 + 1022 := by omega
      rw [ofInt_bits h0 hn, hexp]
      omega
    rw [nearest, if_neg h0, hlead, hunit]
    simp only [Nat.pow_eq, neg_neg, Int.toNat_natCast, Int.toNat_neg_natCast, pow_zero, Nat.mul_one,
      hround, shifted_eq h0 hk]
    rw [hbits, if_neg, UInt64.ofNat_toNat]
    rw [ofInt_bits h0 hn]
    omega
  · rw [eq_of_log2 h0 hn hk]
    decide +kernel

/-- Steps from one integer to another are exact. -/
theorem steps_of_toInt {x : Binary64} {m : ℤ} {k : Nat} (hx : x.toInt? = some m) (h0 : 0 < m)
    (hk : m + k ≤ 2 ^ 53) : (x.steps k).toInt? = some (m + k) := by
  obtain ⟨n, hn⟩ : ∃ n : Nat, m + k = n := ⟨(m + k).toNat, by omega⟩
  have hn0 : n ≠ 0 := by omega
  have hn53 : n ≤ 2 ^ 53 := by omega
  have hneg : ¬(m + (k : ℤ) < 0) := by omega
  have hsteps : x.steps k = ofInt n := by
    rw [steps, hx]
    simp only [ofIntNearest, if_neg hneg]
    rw [hn, Int.natAbs_natCast, nearest_one hn0 hn53]
  rw [hsteps, hn]
  exact toInt_ofInt hn0 hn53

end Binary64

namespace Position

/-- A position that stands for an integer: in 32 bits, or as a larger binary64 number of at most 53. -/
inductive Is : Position → ℤ → Prop
  | int (k : Int32) : Is (.int k) k.toInt
  | float {x : Binary64} {n : ℤ} (hx : x.toInt? = some n) (hl : 2 ^ 31 ≤ n) (hu : n ≤ 2 ^ 53) :
      Is (.float x) n

variable {p : Position} {n : ℤ} {k : Nat}

namespace Is

theorem unique {m : ℤ} (h : p.Is n) (h' : p.Is m) : n = m := by
  cases h with
  | int k =>
    cases h'
    rfl
  | float hx =>
    cases h' with
    | float hx' => exact Option.some.inj (hx.symm.trans hx')

theorem le (h : p.Is n) : n ≤ 2 ^ 53 := by
  cases h with
  | int k =>
    have := k.toInt_lt
    omega
  | float _ _ hu => exact hu

theorem ge (h : p.Is n) : -2 ^ 31 ≤ n := by
  cases h with
  | int k => exact k.le_toInt
  | float _ hl => omega

theorem place_of_nonneg (h : p.Is n) (hn : 0 ≤ n) : p.place? = some n.toNat := by
  cases h with
  | int k => exact if_pos hn
  | float hx => rw [place?, hx, Option.bind_some, if_pos hn]

theorem place_of_neg (h : p.Is n) (hn : n < 0) : p.place? = none := by
  cases h with
  | int k => exact if_neg (by omega)
  | float _ hl => omega

/-- Moving on adds to the integer. -/
theorem advance (h : p.Is n) (hk : n + k ≤ 2 ^ 53) : (p.advance k).Is (n + k) := by
  rcases Nat.eq_zero_or_pos k with rfl | hpos
  · rw [Position.advance, if_pos rfl]
    simpa using h
  · rw [Position.advance, if_neg (by omega)]
    cases h with
    | int m =>
      have hm := m.le_toInt
      simp only [Value.numeric?]
      by_cases hsum : m.toInt + k < 0x80000000
      · have hint := Int32.toInt_ofInt_of_le (n := m.toInt + k) (by omega) (by omega)
        have his := Is.int (Int32.ofInt (m.toInt + k))
        rw [hint] at his
        rw [if_pos hsum]
        exact his
      · obtain ⟨s, hs⟩ : ∃ s : Nat, m.toInt + k = s := ⟨(m.toInt + k).toNat, by omega⟩
        rw [if_neg hsum, hs]
        rw [hs] at hk hsum
        exact .float (Binary64.toInt_ofInt (by omega) (by omega)) (by omega) hk
    | float hx hl hu => exact .float (Binary64.steps_of_toInt hx (by omega) hk) (by omega) hk

/-- The representation is the usual one. -/
theorem usual (h : p.Is n) : p.usual = p := by
  cases h with
  | int k => rfl
  | float hx hl _ =>
    rw [Position.usual, Value.ofBinary64, hx]
    exact if_neg (by omega)

/-- The 32-bit integer that a position is read as. -/
theorem exactInt32 (h : p.Is n) : Value.exactInt32? p = if n < 2 ^ 31 then some (Int32.ofInt n) else none := by
  cases h with
  | int k =>
    rw [if_pos k.toInt_lt, Int32.ofInt_toInt]
    rfl
  | float hx hl _ =>
    rw [if_neg (by omega), Value.exactInt32?, hx]
    exact if_neg (by omega)

theorem number_of_neg (h : p.Is n) (hn : n ≤ 0) : p.number = .ofInt n := by
  cases h with
  | int k => rfl
  | float _ hl => omega

end Is

/-- Numbers stay numbers. -/
theorem isNumber_advance (h : Value.IsNumber p) (k : Nat) : Value.IsNumber (p.advance k) := by
  rw [advance]
  split
  · exact h
  · cases h with
    | int m =>
      simp only [Value.numeric?]
      split
      · exact .int _
      · exact .float _
    | float x => exact .float _

theorem isNumber_usual (h : Value.IsNumber p) : Value.IsNumber p.usual := by
  cases h with
  | int k => exact .int k
  | float x =>
    rw [usual, Value.ofBinary64]
    split
    · split
      · exact .int _
      · exact .float _
    · exact .float _

theorem isSettled_of_isNumber (h : Value.IsNumber p) : p.isSettled = true := by
  cases h <;> rfl

end Position

end ProxySession
