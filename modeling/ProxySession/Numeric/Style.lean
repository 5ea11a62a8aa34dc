import ProxySession.Numeric.Shortest

/-!
# Written numbers

A `NumberStyle` holds the decisions of one way to write binary64 numbers. Error texts write a
number in `NumberStyle.plain`, the text of a thrown number is in `NumberStyle.exact`, and a number
used as text by foreign code is in `NumberStyle.script`.
-/

namespace ProxySession

/-- The decisions of a way to write numbers. -/
structure NumberStyle where
  /-- The digits of the magnitude of a finite number. -/
  decimal : Binary64 → Decimal
  /-- Whether a number with this power of ten of its leading digit is written without exponent. -/
  positional : Int → Bool
  /-- Whether an integer keeps a fractional part of one zero. -/
  keepsPoint : Bool
  /-- Whether an exponent that is not negative has a plus sign. -/
  plusSign : Bool
  /-- Whether the negative zero keeps its sign. -/
  signedZero : Bool
  infinity : String

namespace NumberStyle

/-- Positional at every size. -/
def plain : NumberStyle := ⟨Binary64.shortest, fun _ => true, false, false, true, "inf"⟩

/-- Positional from `1e-4` to below `1e16`, and never without a point or an exponent. -/
def exact : NumberStyle :=
  ⟨Binary64.shortest, fun k => decide (-4 ≤ k ∧ k < 16), true, false, true, "inf"⟩

/-- Rounded digits, positional from `1e-6` to below `1e21`. -/
def script : NumberStyle :=
  ⟨Binary64.shortestRounded, fun k => decide (-7 < k ∧ k < 21), false, true, false, "Infinity"⟩

/-- The digits around the point at the place that the exponent gives. -/
def layoutPositional (n : NumberStyle) (d : Decimal) : String :=
  let digits := d.text
  if 0 ≤ d.exponent then
    String.ofList (digits ++ List.replicate d.exponent.toNat '0')
      ++ (if n.keepsPoint then ".0" else "")
  else
    let places := (-d.exponent).toNat
    if places < digits.length then
      String.ofList (digits.take (digits.length - places)) ++ "."
        ++ String.ofList (digits.drop (digits.length - places))
    else
      "0." ++ String.ofList (List.replicate (places - digits.length) '0' ++ digits)

/-- One digit before the point, the others after it, and the exponent. -/
def layoutScientific (n : NumberStyle) (d : Decimal) : String :=
  let digits := d.text
  let mantissa := match digits with
    | first :: second :: rest => String.ofList (first :: '.' :: second :: rest)
    | _ => String.ofList digits
  let sign := if n.plusSign && decide (0 ≤ d.leading) then "+" else ""
  mantissa ++ "e" ++ sign ++ toString d.leading

/-- The text of a number. -/
def write (n : NumberStyle) (x : Binary64) : String :=
  if x.isNaN then
    "NaN"
  else
    let isZero := x.isFinite && x.significand == 0
    let sign := if x.isNegative && (n.signedZero || !isZero) then "-" else ""
    if !x.isFinite then
      sign ++ n.infinity
    else
      let d := n.decimal x
      sign ++ (if n.positional d.leading then n.layoutPositional d else n.layoutScientific d)

end NumberStyle

end ProxySession
