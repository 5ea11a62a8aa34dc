/-!
# Binary64 numbers by their bits

A finite number is a sign, a significand and a power of two. `Binary64.toInt?` gives the integer
that a number is, if it is one; every decision on integrality goes through it.
-/

namespace ProxySession

/-- A binary64 number, given by its 64 bits. -/
structure Binary64 where
  bits : UInt64
deriving DecidableEq, Inhabited

namespace Binary64

def isNegative (x : Binary64) : Bool := decide (Nat.pow 2 63 ≤ x.bits.toNat)

def exponentField (x : Binary64) : Nat := x.bits.toNat / Nat.pow 2 52 % Nat.pow 2 11

def fractionField (x : Binary64) : Nat := x.bits.toNat % Nat.pow 2 52

def isFinite (x : Binary64) : Bool := x.exponentField != 2047

def isNaN (x : Binary64) : Bool := x.exponentField == 2047 && x.fractionField != 0

/-- The one written form of a number that is not a number. -/
def nan : Binary64 := ⟨0x7ff8000000000000⟩

/-- Replaces every number that is not a number by `nan`. -/
def canonical (x : Binary64) : Binary64 := if x.isNaN then nan else x

/-- The significand of a finite number: its magnitude is `significand * 2 ^ exponent`. -/
def significand (x : Binary64) : Nat :=
  if x.exponentField = 0 then x.fractionField else Nat.pow 2 52 + x.fractionField

/-- The power of two that the significand of a finite number is multiplied by. -/
def exponent (x : Binary64) : Int :=
  if x.exponentField = 0 then -1074 else (x.exponentField : Int) - 1075

/-- The magnitude of a finite number, if it is a natural number. -/
def magnitude? (x : Binary64) : Option Nat :=
  if 0 ≤ x.exponent then
    some (x.significand * Nat.pow 2 x.exponent.toNat)
  else if x.significand % Nat.pow 2 (-x.exponent).toNat = 0 then
    some (x.significand / Nat.pow 2 (-x.exponent).toNat)
  else
    none

/-- The integer that the number is, if it is finite and has no fractional part. Both zeros are 0. -/
def toInt? (x : Binary64) : Option Int :=
  if x.isFinite then
    x.magnitude?.map fun n => if x.isNegative then -(n : Int) else n
  else
    none

/-- The significand of a finite number with its sign. -/
def signedSignificand (x : Binary64) : Int :=
  if x.isNegative then -(x.significand : Int) else x.significand

/-- Where a number lies: below all finite numbers, among them, or above them. -/
def side (x : Binary64) : Int :=
  if x.isFinite then 0 else if x.isNegative then -1 else 1

/-- How a number compares to an integer, if it is a number. -/
def compareInt? (x : Binary64) (n : Int) : Option Ordering :=
  if x.isNaN then
    none
  else if x.isFinite then
    some (compare (x.signedSignificand * Nat.pow 2 x.exponent.toNat)
      (n * Nat.pow 2 (-x.exponent).toNat))
  else
    some (compare x.side 0)

/-- How two numbers compare. What is not a number compares to nothing. -/
def compare? (x y : Binary64) : Option Ordering :=
  if x.isNaN || y.isNaN then
    none
  else if x.isFinite && y.isFinite then
    let unit := min x.exponent y.exponent
    some (compare (x.signedSignificand * Nat.pow 2 (x.exponent - unit).toNat)
      (y.signedSignificand * Nat.pow 2 (y.exponent - unit).toNat))
  else
    some (compare x.side y.side)

/-- The integer next to a finite number on the side of zero. -/
def truncate (x : Binary64) : Int :=
  let n := x.significand * Nat.pow 2 x.exponent.toNat / Nat.pow 2 (-x.exponent).toNat
  if x.isNegative then -(n : Int) else n

/-- The low 32 bits of the integer next to a number on the side of zero. -/
def toUInt32 (x : Binary64) : UInt32 := if x.isFinite then UInt32.ofInt x.truncate else 0

/-- The number that an integer of at most 53 bits is. -/
def ofInt (n : Int) : Binary64 :=
  let m := n.natAbs
  let k := m.log2
  if m = 0 then
    ⟨0⟩
  else
    let sign := if n < 0 then Nat.pow 2 63 else 0
    ⟨UInt64.ofNat (sign + (k + 1023) * Nat.pow 2 52 + (m - Nat.pow 2 k) * Nat.pow 2 (52 - k))⟩

/-- Numeric equality: the two zeros are equal, and what is not a number equals nothing. -/
def numEq (x y : Binary64) : Bool :=
  if x.isNaN || y.isNaN then false
  else x.bits == y.bits || (x.toInt? == some 0 && y.toInt? == some 0)

end Binary64

end ProxySession
