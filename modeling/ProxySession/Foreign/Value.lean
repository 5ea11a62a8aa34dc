import ProxySession.Numeric.Literal
import ProxySession.Numeric.Style
import ProxySession.Text.Units

/-!
# Foreign values

A foreign value is a primitive or a reference to an object of the foreign heap. Numbers have two
representations, a 32-bit integer and a binary64 number; only the name of the representation and
the written form tell them apart.
-/

namespace ProxySession

/-- A reference to an object of the foreign heap. -/
structure ObjectRef where
  index : Nat
deriving DecidableEq, Inhabited

/-- A foreign value. -/
inductive Value where
  | undefined
  | null
  | bool (b : Bool)
  | int (n : Int32)
  | float (x : Binary64)
  | bigint (n : Int)
  | text (t : Units)
  | symbol (id : Nat)
  | object (r : ObjectRef)
deriving DecidableEq, Inhabited

namespace Value

def ofString (s : String) : Value := .text (Units.ofString s)

/-- Null and undefined stand for a value that is absent. -/
def isAbsent : Value → Bool
  | undefined | null => true
  | _ => false

/-- The number that a value is, whatever its representation. -/
def number? : Value → Option Binary64
  | int n => some (Binary64.ofInt n.toInt)
  | float x => some x
  | _ => none

/-- The integer that a number is exactly. -/
def exactInt? : Value → Option Int
  | int n => some n.toInt
  | float x => x.toInt?
  | _ => none

/-- The 32-bit integer that a number is exactly. -/
def exactInt32? (v : Value) : Option Int32 :=
  match v with
  | int n => some n
  | float x =>
    match x.toInt? with
    | some n => if -0x80000000 ≤ n ∧ n < 0x80000000 then some (Int32.ofInt n) else none
    | none => none
  | _ => none

/-- A number in its usual representation: an integer of 32 bits other than the negative zero is
represented as one. -/
def ofBinary64 (x : Binary64) : Value :=
  match x.toInt? with
  | some n =>
    if -0x80000000 ≤ n ∧ n < 0x80000000 ∧ ¬(n = 0 ∧ x.isNegative) then int (Int32.ofInt n) else float x
  | none => float x

/-- The number that a value counts as where foreign code needs one. A big integer, a symbol and an
object count as none. -/
def countsAs? : Value → Option Binary64
  | undefined => some .nan
  | null => some ⟨0⟩
  | bool b => some (.ofInt (if b then 1 else 0))
  | int n => some (.ofInt n.toInt)
  | float x => some x
  | text t =>
    match t.decode with
    | .ok s => some (.ofText s)
    | .error _ => some .nan
  | bigint _ | symbol _ | object _ => none

/-- The number or big integer that a value counts as. A symbol and an object count as none. -/
def numeric? : Value → Option Value
  | int n => some (int n)
  | float x => some (float x)
  | bigint n => some (bigint n)
  | v => v.countsAs?.map ofBinary64

/-- How two numbers or big integers compare, exactly. -/
def compareNumeric? : Value → Value → Option Ordering
  | bigint m, bigint n => some (compare m n)
  | bigint m, v => (v.number?.bind fun y => y.compareInt? m).map Ordering.swap
  | v, bigint n => v.number?.bind fun x => x.compareInt? n
  | v, w => do (← v.number?).compare? (← w.number?)

/-- The big integer that a text is. -/
def bigInteger? (t : Units) : Option Int := t.decode.toOption.bind Literal.bigInteger?

/-- How two values compare: texts by their units, a text to a big integer as a big integer, and
other values by what they count as. -/
def compare? : Value → Value → Option Ordering
  | text s, text t => some (compare s.codes t.codes)
  | text s, bigint n => (bigInteger? s).map fun m => compare m n
  | bigint m, text t => (bigInteger? t).map fun n => compare m n
  | v, w => do compareNumeric? (← v.numeric?) (← w.numeric?)

/-- Null, undefined, booleans and numbers own nothing in the foreign heap. -/
def ownsNothing : Value → Bool
  | undefined | null | bool _ | int _ | float _ => true
  | _ => false

/-- Whether the value counts as true in a condition. -/
def isTruthy : Value → Bool
  | undefined | null => false
  | bool b => b
  | int n => n != 0
  | float x => !x.isNaN && x.toInt? != some 0
  | bigint n => n != 0
  | text t => !t.codes.isEmpty
  | symbol _ | object _ => true

/-- Strict equality: numbers by value, objects by identity, and never across kinds. -/
def strictEq (a b : Value) : Bool :=
  match a.number?, b.number? with
  | some x, some y => x.numEq y
  | none, none => a == b
  | _, _ => false

end Value

end ProxySession
