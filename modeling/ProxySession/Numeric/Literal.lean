import ProxySession.Numeric.Shortest

/-!
# Numbers written as text

`Binary64.ofText` reads what foreign code takes for a number: a decimal with an optional sign,
point and exponent, a signed infinity, or a whole number in hexadecimal, octal or binary digits
after its mark. Blanks around it do not count, a text of blanks alone is zero, and any other text
is not a number. `Literal.bigInteger?` reads the whole numbers among them without rounding.
-/

namespace ProxySession

namespace Decimal

/-- The number nearest to a decimal. -/
def toBinary64 (d : Decimal) : Binary64 :=
  let leading := d.exponent + d.text.length
  if d.digits = 0 ∨ leading < -330 then ⟨0⟩
  else if 310 < leading then Binary64.infinity
  else Binary64.nearest (d.digits * Nat.pow 10 d.exponent.toNat) (Nat.pow 10 (-d.exponent).toNat)

end Decimal

namespace Literal

/-- The blanks that may stand around a number, line ends included. -/
def isBlank (c : Char) : Bool :=
  let n := c.toNat
  decide (9 ≤ n ∧ n ≤ 13) || decide (0x2000 ≤ n ∧ n ≤ 0x200a)
    || [0x20, 0xa0, 0x1680, 0x2028, 0x2029, 0x202f, 0x205f, 0x3000, 0xfeff].contains n

def trim (s : List Char) : List Char :=
  ((s.dropWhile isBlank).reverse.dropWhile isBlank).reverse

/-- The value of a digit in a base of at most sixteen. -/
def digit? (base : Nat) (c : Char) : Option Nat :=
  let value :=
    if '0' ≤ c ∧ c ≤ '9' then some (c.toNat - '0'.toNat)
    else if 'a' ≤ c ∧ c ≤ 'f' then some (c.toNat - 'a'.toNat + 10)
    else if 'A' ≤ c ∧ c ≤ 'F' then some (c.toNat - 'A'.toNat + 10)
    else none
  value.filter fun n => decide (n < base)

/-- The value of digits, of which there is at least one. -/
def natural? (base : Nat) : List Char → Option Nat
  | [] => none
  | s => s.foldlM (fun n c => (digit? base c).map fun d => base * n + d) 0

/-- A whole number with an optional sign. -/
def integer? : List Char → Option Int
  | '+' :: s => (natural? 10 s).map fun n => (n : Int)
  | '-' :: s => (natural? 10 s).map fun n => -(n : Int)
  | s => (natural? 10 s).map fun n => (n : Int)

/-- A whole number that is not negative, with an optional plus sign. -/
def index? : List Char → Option Nat
  | '+' :: s => natural? 10 s
  | s => natural? 10 s

/-- The exponent at the end of a decimal, zero if there is none. -/
def exponent? : List Char → Option Int
  | [] => some 0
  | 'e' :: s | 'E' :: s => integer? s
  | _ => none

/-- A decimal without sign: digits with a point anywhere, and an exponent. -/
def decimal? (s : List Char) : Option Decimal := do
  let whole := s.takeWhile Char.isDigit
  let (places, rest) := match s.dropWhile Char.isDigit with
    | '.' :: rest => (rest.takeWhile Char.isDigit, rest.dropWhile Char.isDigit)
    | rest => ([], rest)
  let digits ← natural? 10 (whole ++ places)
  let exponent ← exponent? rest
  pure ⟨digits, exponent - places.length⟩

/-- A number without sign in decimal digits, or infinity. -/
def magnitude (s : List Char) : Binary64 :=
  if s = "Infinity".toList then Binary64.infinity
  else match decimal? s with
    | some d => d.toBinary64
    | none => .nan

/-- A whole number in digits of a base. -/
def whole (base : Nat) (s : List Char) : Binary64 :=
  match natural? base s with
  | some n => .nearest n 1
  | none => .nan

/-- The number that a text without blanks around it is. -/
def read : List Char → Binary64
  | [] => ⟨0⟩
  | '0' :: 'x' :: s | '0' :: 'X' :: s => whole 16 s
  | '0' :: 'o' :: s | '0' :: 'O' :: s => whole 8 s
  | '0' :: 'b' :: s | '0' :: 'B' :: s => whole 2 s
  | '+' :: s => magnitude s
  | '-' :: s => (magnitude s).neg.canonical
  | s => magnitude s

/-- The integer that a text without blanks around it is: decimal digits with an optional sign, or
digits of another base after its mark. -/
def wholeNumber? : List Char → Option Int
  | [] => some 0
  | '0' :: 'x' :: s | '0' :: 'X' :: s => (natural? 16 s).map Int.ofNat
  | '0' :: 'o' :: s | '0' :: 'O' :: s => (natural? 8 s).map Int.ofNat
  | '0' :: 'b' :: s | '0' :: 'B' :: s => (natural? 2 s).map Int.ofNat
  | s => integer? s

end Literal

/-- The integer that a text is. -/
def Literal.bigInteger? (s : String) : Option Int := wholeNumber? (trim s.toList)

/-- The number that a text is. -/
def Binary64.ofText (s : String) : Binary64 := Literal.read (Literal.trim s.toList)

end ProxySession
