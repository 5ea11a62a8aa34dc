/-!
# Text as 16-bit units

Foreign text is a sequence of 16-bit units. A character above the first plane is a pair of
surrogate units; a surrogate unit without its partner has no character. `Units.decode` reads units
back into characters and says where the first stray surrogate stands, `Units.ofString` writes
characters as units, and reading what was written gives the characters back.
-/

namespace ProxySession

/-- A text of 16-bit units. -/
structure Units where
  codes : List UInt16
deriving DecidableEq, Inhabited

namespace Units

def isHigh (u : UInt16) : Bool := decide (0xD800 ≤ u.toNat ∧ u.toNat < 0xDC00)

def isLow (u : UInt16) : Bool := decide (0xDC00 ≤ u.toNat ∧ u.toNat < 0xE000)

/-- The units of one character: one in the first plane, a surrogate pair above it. -/
def ofChar (c : Char) : List UInt16 :=
  if c.toNat < 0x10000 then
    [UInt16.ofNat c.toNat]
  else
    [UInt16.ofNat (0xD800 + (c.toNat - 0x10000) / 0x400),
      UInt16.ofNat (0xDC00 + (c.toNat - 0x10000) % 0x400)]

def ofString (s : String) : Units := ⟨s.toList.flatMap ofChar⟩

/-- The character of a surrogate pair. -/
def pairChar (high low : UInt16) : Char :=
  Char.ofNat (0x10000 + (high.toNat - 0xD800) * 0x400 + (low.toNat - 0xDC00))

/-- Reads units as characters. At a stray surrogate it stops with the count of bytes that the
characters before it take in UTF-8, counted from `offset`. -/
def decodeFrom (offset : Nat) : List UInt16 → Except Nat (List Char)
  | [] => .ok []
  | u :: rest =>
    if isHigh u then
      match rest with
      | v :: rest =>
        if isLow v then (decodeFrom (offset + 4) rest).map (pairChar u v :: ·)
        else .error offset
      | [] => .error offset
    else if isLow u then
      .error offset
    else
      let c := Char.ofNat u.toNat
      (decodeFrom (offset + c.utf8Size) rest).map (c :: ·)

/-- The characters of the text, or the place of the first stray surrogate in UTF-8 bytes. -/
def decode (t : Units) : Except Nat String := (decodeFrom 0 t.codes).map String.ofList

def length (t : Units) : Nat := t.codes.length

/-- The index of an array element, if the text is its canonical decimal form. -/
def arrayIndex? (t : Units) : Option Nat :=
  let digits := t.codes.map fun u => u.toNat - 48
  let value := digits.foldl (fun n d => 10 * n + d) 0
  if t.codes.all (fun u => 48 ≤ u && u ≤ 57) && !t.codes.isEmpty
      && (t.codes.head? != some 48 || t.codes.length == 1)
      && t.codes.length ≤ 10 && value ≤ 4294967294 then
    some value
  else
    none

/-- The units from `start` up to `stop`. -/
def slice (t : Units) (start stop : Nat) : Units := ⟨(t.codes.drop start).take (stop - start)⟩

end Units

end ProxySession
