import ProxySession.Foreign.Value

/-!
# The foreign tokenizer

The state machine behind a foreign scanner object: a text in 16-bit units, a position, and the
start of the current token. `Tokenizer.scan` skips blanks and takes one token.

A position is the value that was given for it. It counts as a number and names the unit of that
place; it may as well lie past the text, before it or between two units, and then it names none.
A `Cursor` is what a scanner object keeps: its subject may be no text, and its positions may be
values that foreign code turns into numbers. The machine runs where neither is the case.
-/

namespace ProxySession

/-- A place in a text as it was given. -/
abbrev Position := Value

namespace Position

/-- The index of the unit that a position names. -/
def place? : Position → Option Nat
  | .int n => if 0 ≤ n.toInt then some n.toInt.toNat else none
  | .float x => x.toInt?.bind fun n => if 0 ≤ n then some n.toNat else none
  | .text t => t.arrayIndex?
  | _ => none

/-- The number that a position counts as. -/
def number (p : Position) : Binary64 := p.countsAs?.getD .nan

/-- The position `n` units further on. -/
def advance (p : Position) (n : Nat) : Position :=
  if n = 0 then p
  else match p.numeric? with
    | some (.int k) =>
      let sum := k.toInt + n
      if sum < 0x80000000 then .int (Int32.ofInt sum) else .float (.ofInt sum)
    | some (.float x) => .float (x.steps n)
    | some (.bigint k) => .bigint (k + n)
    | _ => p

/-- The position in its usual representation. -/
def usual : Position → Position
  | .float x => .ofBinary64 x
  | p => p

/-- Whether a position counts as a number of itself and names a unit or none. A text that is no
number may name something else that a text has. -/
def isSettled : Position → Bool
  | .bigint _ | .symbol _ | .object _ => false
  | .text t => !(number (.text t)).isNaN
  | _ => true

end Position

/-- A tokenizer over a text. -/
structure Tokenizer where
  text : Units
  position : Position := .int 0
  start : Position := .int 0

namespace Tokenizer

/-- The codes that a scan answers with. -/
def endOfFile : Int32 := 1
def numericLiteral : Int32 := 9
def stringLiteral : Int32 := 11
def identifier : Int32 := 80

def keywordCode (word : Units) : Int32 :=
  if word = Units.ofString "let" then 121
  else if word = Units.ofString "const" then 87
  else if word = Units.ofString "number" then 150
  else if word = Units.ofString "string" then 154
  else identifier

def punctuationCode (u : UInt16) : Int32 :=
  if u = 0x3d then 64
  else if u = 0x3b then 27
  else if u = 0x3a then 59
  else if u = 0x2c then 28
  else 0

def isBlank (u : UInt16) : Bool := u = 0x20 || u = 0x09 || u = 0x0a || u = 0x0d

def isDigit (u : UInt16) : Bool := 0x30 ≤ u && u ≤ 0x39

def isWordStart (u : UInt16) : Bool :=
  (0x41 ≤ u && u ≤ 0x5a) || (0x61 ≤ u && u ≤ 0x7a) || u = 0x5f || u = 0x24

def isWordPart (u : UInt16) : Bool := isWordStart u || isDigit u

def isNumberPart (u : UInt16) : Bool := isDigit u || u = 0x2e

def isQuote (u : UInt16) : Bool := u = 0x22

/-- The units from a position on. -/
def unitsFrom (t : Tokenizer) (position : Nat) : List UInt16 := t.text.codes.drop position

/-- How many units from the position on, without interruption, have a property. -/
def runLength (p : UInt16 → Bool) (us : List UInt16) : Nat := (us.takeWhile p).length

/-- The code and the length of the token at the head of the units, blanks before it being gone. -/
def tokenAtHead : List UInt16 → Int32 × Nat
  | [] => (endOfFile, 0)
  | u :: rest =>
    if isWordStart u then
      let n := 1 + runLength isWordPart rest
      (keywordCode ⟨(u :: rest).take n⟩, n)
    else if isDigit u then
      (numericLiteral, 1 + runLength isNumberPart rest)
    else if isQuote u then
      let n := 1 + runLength (!isQuote ·) rest
      (stringLiteral, min (n + 1) (rest.length + 1))
    else
      (punctuationCode u, 1)

/-! ## Parts of the text -/

/-- The index of an integer in the text. A negative one is counted from the end. -/
def index (t : Tokenizer) (n : Int) : Nat :=
  if n < 0 then ((t.text.length : Int) + n).toNat else n.toNat

/-- The index at which the text is cut for a position. -/
def cut (t : Tokenizer) : Position → Nat
  | .int n => t.index n.toInt
  | p =>
    let x := p.number
    if x.isNaN then 0
    else if x.isFinite then t.index x.truncate
    else if x.isNegative then 0
    else t.text.length

/-- The units from one position up to another. Without an end they go to the end of the text. -/
def between (t : Tokenizer) (start stop : Position) : Units :=
  t.text.slice (t.cut start) (if stop = .undefined then t.text.length else t.cut stop)

/-! ## The machine -/

/-- Skips blanks and takes the token at the place that the position names. -/
def scanAt (t : Tokenizer) (place : Nat) : Int32 × Tokenizer :=
  let skipped := runLength isBlank (t.unitsFrom place)
  let (code, length) := tokenAtHead (t.unitsFrom (place + skipped))
  let stop := t.position.advance (skipped + length)
  (code,
    { t with
      start := t.position.advance skipped
      position := if code = stringLiteral then stop.usual else stop })

/-- Where a word goes on to from a position, at most `fuel` units further on. A place without a unit
counts as a part of the word. -/
def wordEndFrom (t : Tokenizer) : Nat → Position → Position
  | 0, p => p
  | fuel + 1, p =>
    let isPart := (p.place?.bind fun i => t.text.codes[i]?).all isWordPart
    match p.number.compareInt? t.text.length with
    | some .lt => if isPart then wordEndFrom t fuel (p.advance 1) else p
    | _ => p

/-- Where a word ends that begins at a position without a unit. -/
def wordEnd (t : Tokenizer) : Position :=
  let next := t.position.advance 1
  match next.number.toInt? with
  | some n =>
    let stop := n.toNat + runLength isWordPart (t.unitsFrom n.toNat)
    next.advance ((stop : Int) - n).toNat
  | none => t.wordEndFrom (t.text.length - next.number.truncate + 1).toNat next

/-- Takes the token at a position without a unit: the end of the text if the position is past it,
and a word otherwise. -/
def scanBeside (t : Tokenizer) : Int32 × Tokenizer :=
  match t.position.number.compareInt? t.text.length with
  | some .lt =>
    let stop := t.wordEnd
    (keywordCode (t.between t.position stop), { t with start := t.position, position := stop })
  | some _ => (endOfFile, { t with start := t.position })
  | none => (keywordCode (t.between t.position t.position), { t with start := t.position })

/-- Skips blanks, takes one token and answers with its code. -/
def scan (t : Tokenizer) : Int32 × Tokenizer :=
  match t.position.place? with
  | some place => t.scanAt place
  | none => t.scanBeside

/-- The units of the current token. -/
def tokenText (t : Tokenizer) : Units := t.between t.start t.position

end Tokenizer

/-- What a scanner object keeps: what it scans, its position, and the start of its current token. -/
structure Cursor where
  subject : Value
  position : Position := .int 0
  start : Position := .int 0
deriving Inhabited

namespace Cursor

/-- The machine of a cursor over a text. -/
def tokenizer? (c : Cursor) : Option Tokenizer :=
  match c.subject with
  | .text text => some { text, position := c.position, start := c.start }
  | _ => none

/-- Moves to a position. -/
def reset (c : Cursor) (position : Position) : Cursor :=
  { c with position, start := position }

/-- The cursor at the positions of a machine. -/
def moveTo (c : Cursor) (t : Tokenizer) : Cursor :=
  { c with position := t.position, start := t.start }

end Cursor

end ProxySession
