import ProxySession.Text.Units

/-!
# JSON documents

A strict reader of JSON. Numbers keep their written form and objects keep every field in order, so
that the reader of a document decides on number forms and repeated fields. A string with a stray
surrogate escape is read but has no text.
-/

namespace ProxySession

/-- A JSON value as written. -/
inductive Document where
  | null
  | bool (b : Bool)
  | number (written : String)
  /-- A string; none if an escape is a surrogate without its partner. -/
  | text (t : Option String)
  | array (items : List Document)
  | object (fields : List (Option String × Document))

namespace Document

/-- What is left to read. -/
abbrev Input := List Char

def isBlank (c : Char) : Bool := c = ' ' || c = '\t' || c = '\n' || c = '\r'

def skipBlank (s : Input) : Input := s.dropWhile isBlank

/-- The rest after an expected text. -/
def expect : List Char → Input → Option Input
  | [], s => some s
  | c :: cs, d :: s => if c = d then expect cs s else none
  | _ :: _, [] => none

def hexDigit? (c : Char) : Option Nat :=
  if c.isDigit then some (c.toNat - 48)
  else if 'a' ≤ c ∧ c ≤ 'f' then some (c.toNat - 87)
  else if 'A' ≤ c ∧ c ≤ 'F' then some (c.toNat - 55)
  else none

/-- The unit that the four digits of an escape give. -/
def hexUnit? (a b c d : Char) : Option UInt16 := do
  let a ← hexDigit? a
  let b ← hexDigit? b
  let c ← hexDigit? c
  let d ← hexDigit? d
  pure (UInt16.ofNat (((a * 16 + b) * 16 + c) * 16 + d))

/-- The character that a backslash and a letter stand for. -/
def shortEscape? (c : Char) : Option Char :=
  [('"', '"'), ('\\', '\\'), ('/', '/'), ('b', '\x08'), ('f', '\x0c'), ('n', '\n'), ('r', '\r'),
    ('t', '\t')].lookup c

/-- The units of a string up to its closing quote, and the rest. -/
def stringUnits : Input → Option (List UInt16 × Input)
  | [] => none
  | '"' :: s => some ([], s)
  | '\\' :: 'u' :: a :: b :: c :: d :: s => do
    let u ← hexUnit? a b c d
    let (units, rest) ← stringUnits s
    pure (u :: units, rest)
  | '\\' :: c :: s => do
    let e ← shortEscape? c
    let (units, rest) ← stringUnits s
    pure (Units.ofChar e ++ units, rest)
  | c :: s =>
    if c.toNat < 0x20 ∨ c = '\\' then none
    else (stringUnits s).map fun (units, rest) => (Units.ofChar c ++ units, rest)

/-- A string after its opening quote, and the rest. -/
def readString (s : Input) : Option (Option String × Input) :=
  (stringUnits s).map fun (units, rest) => ((Units.mk units).decode.toOption, rest)

/-- One or more digits, and the rest. -/
def digits (s : Input) : Option (List Char × Input) :=
  match s.takeWhile Char.isDigit with
  | [] => none
  | ds => some (ds, s.dropWhile Char.isDigit)

/-- A number: an integer without needless zeros, then perhaps a fraction and an exponent. -/
def readNumber (s : Input) : Option (String × Input) := do
  let (sign, s) := match s with
    | '-' :: s => (['-'], s)
    | s => ([], s)
  let (whole, s) ← digits s
  if whole.head? = some '0' ∧ whole.length ≠ 1 then none
  let (fraction, s) ← match s with
    | '.' :: s => (digits s).map fun (ds, s) => ('.' :: ds, s)
    | s => some ([], s)
  let (exponent, s) ← match s with
    | c :: s' =>
      if c = 'e' ∨ c = 'E' then
        let (sign, s') := match s' with
          | '+' :: s' => (['+'], s')
          | '-' :: s' => (['-'], s')
          | s' => ([], s')
        (digits s').map fun (ds, s') => (c :: sign ++ ds, s')
      else
        some ([], c :: s')
    | [] => some ([], [])
  pure (String.ofList (sign ++ whole ++ fraction ++ exponent), s)

mutual

/-- One value and the rest. The fuel bounds the nesting of the reading functions. -/
def readValue : Nat → Input → Option (Document × Input)
  | 0, _ => none
  | fuel + 1, s =>
    match skipBlank s with
    | '"' :: s => (readString s).map fun (t, s) => (.text t, s)
    | '[' :: s =>
      match skipBlank s with
      | ']' :: s => some (.array [], s)
      | s => (readItems fuel s).map fun (xs, s) => (.array xs, s)
    | '\x7b' :: s =>
      match skipBlank s with
      | '\x7d' :: s => some (.object [], s)
      | s => (readFields fuel s).map fun (fs, s) => (.object fs, s)
    | 'n' :: s => (expect "ull".toList s).map fun s => (.null, s)
    | 't' :: s => (expect "rue".toList s).map fun s => (.bool true, s)
    | 'f' :: s => (expect "alse".toList s).map fun s => (.bool false, s)
    | s => (readNumber s).map fun (n, s) => (.number n, s)

/-- The items of an array up to its closing bracket. -/
def readItems : Nat → Input → Option (List Document × Input)
  | 0, _ => none
  | fuel + 1, s => do
    let (x, s) ← readValue fuel s
    match skipBlank s with
    | ',' :: s =>
      let (xs, s) ← readItems fuel s
      pure (x :: xs, s)
    | ']' :: s => pure ([x], s)
    | _ => none

/-- The fields of an object up to its closing brace. -/
def readFields : Nat → Input → Option (List (Option String × Document) × Input)
  | 0, _ => none
  | fuel + 1, s => do
    let s ← expect ['"'] (skipBlank s)
    let (key, s) ← readString s
    let s ← expect [':'] (skipBlank s)
    let (x, s) ← readValue fuel s
    match skipBlank s with
    | ',' :: s =>
      let (fs, s) ← readFields fuel s
      pure ((key, x) :: fs, s)
    | '\x7d' :: s => pure ([(key, x)], s)
    | _ => none

end

/-- The value that a whole text holds, blanks around it aside. -/
def parse? (text : String) : Option Document :=
  match readValue (2 * text.length + 2) text.toList with
  | some (x, rest) => if (skipBlank rest).isEmpty then some x else none
  | none => none

end Document

end ProxySession
