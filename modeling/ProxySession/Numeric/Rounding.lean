import ProxySession.Numeric.Binary64

/-!
# Rounding to the nearest

`roundDiv` rounds a quotient of natural numbers to the nearest integer, and `Binary64.nearest` to
the nearest binary64 number. A quotient half-way between two goes to the even one.
-/

namespace ProxySession

/-- The integer nearest to a quotient. -/
def roundDiv (n d : Nat) : Nat :=
  let q := n / d
  let r := n % d
  if 2 * r < d ∨ (2 * r = d ∧ q % 2 = 0) then q else q + 1

namespace Binary64

def infinity : Binary64 := ⟨0x7ff0000000000000⟩

/-- The number with the opposite sign. -/
def neg (x : Binary64) : Binary64 := ⟨x.bits ^^^ 0x8000000000000000⟩

/-- The power of two of the leading binary digit of a quotient that is not zero. -/
def leadingPower (n d : Nat) : Int :=
  let guess := (n.log2 : Int) - d.log2
  if n * Nat.pow 2 (-guess).toNat < d * Nat.pow 2 guess.toNat then guess - 1 else guess

/-- The number nearest to a quotient. What is too large for a finite number is infinite. -/
def nearest (n d : Nat) : Binary64 :=
  if n = 0 then
    ⟨0⟩
  else
    let unit := max (leadingPower n d - 52) (-1074)
    let m := roundDiv (n * Nat.pow 2 (-unit).toNat) (d * Nat.pow 2 unit.toNat)
    let bits := m + (unit + 1074).toNat * Nat.pow 2 52
    if 0x7ff0000000000000 ≤ bits then infinity else ⟨UInt64.ofNat bits⟩

/-- The number nearest to an integer. -/
def ofIntNearest (n : Int) : Binary64 :=
  if n < 0 then (nearest n.natAbs 1).neg else nearest n.natAbs 1

/-- The number nearest to the next number up by one. -/
def next (x : Binary64) : Binary64 :=
  if x.isFinite then
    let unit : Nat := Nat.pow 2 (-x.exponent).toNat
    let n : Int := x.significand * Nat.pow 2 x.exponent.toNat
    let sum := (if x.isNegative then -n else n) + unit
    if sum < 0 then (nearest sum.natAbs unit).neg else nearest sum.natAbs unit
  else
    x.canonical

/-- The number after `n` steps up by one, each rounded. -/
def steps (x : Binary64) (n : Nat) : Binary64 :=
  match x.toInt? with
  | some m => ofIntNearest (m + n)
  | none => n.repeat next x

end Binary64

end ProxySession
