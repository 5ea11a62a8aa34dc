import ProxySession.Numeric.Rounding

/-!
# The fewest digits that read back

`Binary64.shortest` writes the magnitude of a finite number as `digits * 10 ^ exponent` with as few
digits as identify the number. The reals that round to a number form an interval around it; the
first decimal grid with a point in that interval fixes the count of digits, and the nearer of the
two neighbours on that grid fixes the digits. `Binary64.shortestRounded` takes the first grid on
which the number rounds to a point of its interval.
-/

namespace ProxySession

/-- The decimal `digits * 10 ^ exponent`. -/
structure Decimal where
  digits : Nat
  exponent : Int
deriving DecidableEq, Inhabited

namespace Decimal

/-- Moves the zeros at the end of the digits into the exponent, at most `fuel` of them. -/
def strip : Nat → Decimal → Decimal
  | 0, d => d
  | fuel + 1, d =>
    if d.digits ≠ 0 ∧ d.digits % 10 = 0 then strip fuel ⟨d.digits / 10, d.exponent + 1⟩ else d

/-- The decimal digits, most significant first. -/
def text (d : Decimal) : List Char := Nat.toDigits 10 d.digits

/-- The power of ten of the leading digit. -/
def leading (d : Decimal) : Int := d.exponent + d.text.length - 1

end Decimal

namespace Binary64

/-- The neighbour below a power of two is nearer than the one above. -/
def isNarrowBelow (x : Binary64) : Bool := x.fractionField == 0 && decide (1 < x.exponentField)

/-- Compares `a * 2 ^ e` with `c * 10 ^ k` by cross-multiplication. -/
def compareScaled (a : Nat) (e : Int) (c : Nat) (k : Int) : Ordering :=
  compare (a * Nat.pow 2 e.toNat * Nat.pow 10 (-k).toNat)
    (c * Nat.pow 10 k.toNat * Nat.pow 2 (-e).toNat)

/-- Whether `c * 10 ^ k` lies in the interval of the reals that round to the magnitude of `x`. The
ends belong to it exactly when the significand is even. -/
def readsBack (x : Binary64) (c : Nat) (k : Int) : Bool :=
  let m := 4 * x.significand
  let low := compareScaled (if x.isNarrowBelow then m - 1 else m - 2) (x.exponent - 2) c k
  let high := compareScaled (m + 2) (x.exponent - 2) c k
  if x.significand % 2 = 0 then low != .gt && high != .lt else low == .lt && high == .gt

/-- The least `k` with the magnitude of `x` below `10 ^ k`, for `x` other than zero. -/
def scale (x : Binary64) : Int :=
  let log := x.exponent + x.significand.log2
  let guess := log * 30103 / 100000 - 1
  let candidates := [guess, guess + 1, guess + 2, guess + 3]
  (candidates.find? fun k => compareScaled x.significand x.exponent 1 k == .lt).getD (guess + 4)

/-- The largest `c` with `c * 10 ^ k` at most the magnitude of `x`. -/
def floorOnGrid (x : Binary64) (k : Int) : Nat :=
  (x.significand * Nat.pow 2 x.exponent.toNat * Nat.pow 10 (-k).toNat)
    / (Nat.pow 10 k.toNat * Nat.pow 2 (-x.exponent).toNat)

/-- The neighbour of the magnitude of `x` on the grid `10 ^ k` that reads back, the nearer one if
both do, the upper one if both are equally near. -/
def neighbour? (x : Binary64) (k : Int) : Option Nat :=
  let c := x.floorOnGrid k
  match x.readsBack c k, x.readsBack (c + 1) k with
  | true, true =>
    some (if compareScaled (2 * x.significand) x.exponent (2 * c + 1) k == .lt then c else c + 1)
  | true, false => some c
  | false, true => some (c + 1)
  | false, false => none

/-- The magnitude of `x` rounded to the grid `10 ^ k`, if that reads back. -/
def rounded? (x : Binary64) (k : Int) : Option Nat :=
  let c := roundDiv (x.significand * Nat.pow 2 x.exponent.toNat * Nat.pow 10 (-k).toNat)
    (Nat.pow 10 k.toNat * Nat.pow 2 (-x.exponent).toNat)
  if x.readsBack c k then some c else none

/-- The choice on the first grid, from the coarsest on, that offers one. -/
def coarsest (x : Binary64) (onGrid? : Int → Option Nat) : Decimal :=
  if x.significand = 0 then
    ⟨0, 0⟩
  else
    let top := x.scale
    let found := (List.range 18).findSome? fun (n : Nat) =>
      (onGrid? (top - (n : Int) - 1)).map fun c => (⟨c, top - (n : Int) - 1⟩ : Decimal)
    match found with
    | some d => d.strip 20
    | none =>
      if 0 ≤ x.exponent then ⟨x.significand * Nat.pow 2 x.exponent.toNat, 0⟩
      else ⟨x.significand * Nat.pow 5 (-x.exponent).toNat, x.exponent⟩

/-- The magnitude of a finite number in as few digits as identify it. -/
def shortest (x : Binary64) : Decimal := x.coarsest x.neighbour?

/-- The magnitude of a finite number rounded to as few digits as identify it. At a power of two,
whose interval is narrow below, the rounded digits may miss where a neighbour would identify it,
and then there is one digit more. -/
def shortestRounded (x : Binary64) : Decimal := x.coarsest x.rounded?

end Binary64

end ProxySession
