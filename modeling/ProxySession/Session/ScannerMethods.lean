import ProxySession.Session.Evaluation.Primitive

/-!
# Methods of scanner objects

Over a text and at settled positions a scanner object runs a `Tokenizer`. Otherwise each use of the
subject or of a position is a use of a foreign value, which may run foreign code, may throw and may
move the scanner itself; `Stepwise.scan` makes these uses one by one, in the order of the machine.
-/

namespace ProxySession

namespace Eval

open Effect

def cursor (i : Nat) : Eval Cursor := do pure ((← world).heap.cursors.getD i default)

def changeCursor (i : Nat) (f : Cursor → Cursor) : Eval Unit := changeHeap fun heap =>
  { heap with cursors := heap.cursors.modify i f }

namespace Stepwise

/-! ## Uses of the subject and the position -/

/-- The length of the subject. -/
def length (i : Nat) : Eval Value := do readMember (← cursor i).subject Object.lengthKey

/-- What the subject has at the position. -/
def here (i : Nat) : Eval Value := do
  let c ← cursor i
  read c.subject (← keyOf c.position)

/-- Whether the position is before the end of the subject. -/
def isInside (i : Nat) : Eval Bool := do
  let c ← cursor i
  isBelow c.position (← length i)

/-- Whether the position is at the end of the subject or past it. -/
def isOutside (i : Nat) : Eval Bool := do
  let c ← cursor i
  isAtLeast c.position (← length i)

/-- Moves one unit on. -/
def step (i : Nat) : Eval Unit := do
  let p ← numericOf (← cursor i).position
  changeCursor i fun c => { c with position := Position.advance p 1 }

/-- The part of the subject from the start to the position. The subject's way to cut is read before
the two. -/
def tokenText (i : Nat) : Eval Value := do
  let subject := (← cursor i).subject
  let f ← readMember subject (.ofString "slice")
  let c ← cursor i
  apply f subject [c.start, c.position]

/-! ## Classes of units -/

def isChar (c : Char) (u : Value) : Bool := u == .ofString c.toString

def isBlank (u : Value) : Bool :=
  [' ', '\t', '\n', '\r'].any fun c => isChar c u

/-- Whether the text of a value has a unit with a property. -/
def hasUnit (p : UInt16 → Bool) (u : Value) : Eval Bool := do pure ((← textOf u).codes.any p)

/-- Whether a value lies between the digits. -/
def isDigit (u : Value) : Eval Bool := do
  if ← isAtLeast u (.ofString "0") then isAtLeast (.ofString "9") u else pure false

/-! ## The machine -/

/-- Moves on while the position is inside and the unit there passes a test, at most `fuel` units. -/
def skip (i : Nat) (test : Eval Bool) : Nat → Eval Unit
  | 0 => exhausted
  | fuel + 1 => do
    if ← isInside i then
      if ← test then
        step i
        skip i test fuel

/-- The number of units that a scan may go through. -/
def limit : Nat := Nat.pow 2 53

/-- Moves on while the unit at the position passes a test. -/
def skipWhile (i : Nat) (test : Value → Eval Bool) : Eval Unit :=
  skip i (do test (← here i)) limit

/-- Moves on through digits and points. A unit that is no digit is looked at again. -/
def skipNumber (i : Nat) : Eval Unit :=
  skip i (do if ← isDigit (← here i) then pure true else isChar '.' <$> here i) limit

/-- Moves behind the mark that ends a string, or to the end of the subject. -/
def closeString (i : Nat) : Eval Unit := do
  let behind ← sumWithOne (← cursor i).position
  let last ← length i
  let x ← numberOf behind
  let y ← numberOf last
  let stop := match x.compare? y with
    | some .lt => x
    | some _ => y
    | none => .nan
  changeCursor i fun c => { c with position := .ofBinary64 stop }

/-- Takes the token that begins with a unit. -/
def take (i : Nat) (u : Value) : Eval Int32 := do
  if ← hasUnit Tokenizer.isWordStart u then
    skipWhile i (hasUnit Tokenizer.isWordPart)
    match ← tokenText i with
    | .text word => pure (Tokenizer.keywordCode word)
    | _ => pure Tokenizer.identifier
  else if ← isDigit u then
    skipNumber i
    pure Tokenizer.numericLiteral
  else if isChar '"' u then
    step i
    skipWhile i fun v => pure (!isChar '"' v)
    closeString i
    pure Tokenizer.stringLiteral
  else
    step i
    match u with
    | .text ⟨[code]⟩ => pure (Tokenizer.punctuationCode code)
    | _ => pure 0

/-- Skips blanks, takes one token and answers with its code. -/
def scan (i : Nat) : Eval Int32 := do
  skipWhile i fun u => pure (isBlank u)
  changeCursor i fun c => { c with start := c.position }
  if ← isOutside i then
    pure Tokenizer.endOfFile
  else
    take i (← here i)

end Stepwise

/-- Skips blanks, takes one token and answers with its code. -/
def scan (i : Nat) : Eval Int32 := do
  let c ← cursor i
  match c.tokenizer? with
  | some t =>
    if Position.isSettled t.position then
      let (code, t) := t.scan
      changeCursor i fun c => c.moveTo t
      pure code
    else
      Stepwise.scan i
  | none => Stepwise.scan i

/-- The part of the subject that is the current token. -/
def tokenText (i : Nat) : Eval Value := do
  let c ← cursor i
  match c.tokenizer? with
  | some t =>
    if Position.isSettled t.start && Position.isSettled t.position then
      pure (.text t.tokenText)
    else
      Stepwise.tokenText i
  | none => Stepwise.tokenText i

/-- Runs a method of a scanner object. -/
def runScannerMethod (i : Nat) (arguments : List Value) : ScannerMethod → Eval Value
  | .resetTokenState => do
    changeCursor i fun c => c.reset (arguments.headD .undefined)
    pure .undefined
  | .scan => .int <$> scan i
  | .getTokenStart => do pure (← cursor i).start
  | .getTokenEnd => do pure (← cursor i).position
  | .getTokenText => tokenText i

end Eval

end ProxySession
