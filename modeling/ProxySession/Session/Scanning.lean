import ProxySession.Session.Resolve

/-!
# Scanner sessions

A scanner session holds a foreign scanner object over one text in a custodian of its own, which its
context tracks. The session keeps its context alive. It closes when it is told to, when its last
clone goes, or when the context closes, whichever comes first.
-/

namespace ProxySession

open Effect

/-- An offset from the foreign side must not be negative. -/
def toOffset (n : Int32) : Operation UInt32 :=
  if n < 0 then fail (.shapeMismatch "text offset" (toString n.toInt)) else pure n.toUInt32

namespace ScannerId

variable {α : Type}

/-- The foreign scanner object of the session. -/
def object (s : ScannerId) : Operation ObjectRef := do
  let session := (← world).scanner s
  match session.custodian.get session.handle with
  | .ok v => Operation.object "scanner object" v
  | .error e => fail (.lifetime e)

/-- Calls a method of the scanner object and converts the result. -/
def call (s : ScannerId) (method : String) (convert : ContextId → Conversion α) : Operation α :=
  Effect.located "scanner" do
    let r ← s.object
    let c := ((← world).scanner s).context
    c.call r method [] (convert c)

/-- Moves the scanner, so that the next scan starts at the position. -/
def reset (s : ScannerId) (position : UInt32) : Operation Unit := do
  let r ← s.object.located "scanner"
  let c := ((← world).scanner s).context
  let _ ← (c.invoke r "resetTokenState" [(HostValue.uint32 position).toForeign]).located "scanner"
  pure ()

/-- Takes the next token and answers with its kind. -/
def scanNext (s : ScannerId) : Operation SyntaxKind :=
  s.call "scan" Conversion.toSyntaxKind

/-- The start of the current token, after the blanks before it. -/
def tokenStart (s : ScannerId) : Operation UInt32 := do
  toOffset (← s.call "getTokenStart" fun _ => Conversion.toInt32)

def tokenEnd (s : ScannerId) : Operation UInt32 := do
  toOffset (← s.call "getTokenEnd" fun _ => Conversion.toInt32)

def tokenText (s : ScannerId) : Operation String := s.call "getTokenText" Conversion.toText

/-- The one token that starts at the position or after the blanks there. -/
def tokenAt (s : ScannerId) (position : UInt32) : Operation Token := do
  s.reset position
  let kind ← s.scanNext
  let start ← s.tokenStart
  let stop ← s.tokenEnd
  let text ← s.tokenText
  pure { kind, start, stop, text }

def close (s : ScannerId) : Operation Unit := do
  match ← act (World.closeScanner s) with
  | .ok _ => pure ()
  | .error e => fail e

end ScannerId

namespace ContextId

/-- Asks the scanner factory for a scanner object over a text. -/
def newScannerObject (c : ContextId) (text : String) : Operation ObjectRef := do
  let factory ← c.function ((← world).context c).scannerFactory
  Effect.located "createScanner" do
    Operation.object "scanner object" (← c.callFunction factory [.ofString text])

/-- Makes a session over a scanner object and tracks it. -/
def newSession (c : ContextId) (text : String) (r : ObjectRef) : Operation ScannerId := do
  let w ← world
  let s : ScannerId := ⟨w.scanners.size⟩
  let session : ScannerSession :=
    { context := c
      custodian :=
        { name := "scanner", slots := #[some (.object r)], resources := [], closed := false }
      handle := ⟨0⟩, text, clones := 1 }
  let finished (other : ScannerId) : Bool := (w.scanner other).custodian.closed
  match (w.context c).custodian.track finished s with
  | .error e => fail (.lifetime e)
  | .ok custodian =>
    change fun w =>
      World.holdContext c ({ w with scanners := w.scanners.push session }.updateContext c
        fun cx => { cx with custodian })
    pure s

/-- Opens a scanner session over a text. The caller holds its one clone. -/
def scanner (c : ContextId) (text : String) : Operation ScannerId := do
  let r ← c.newScannerObject text
  let s ← c.newSession text r
  (s.reset 0).onStop (World.dropScanner s)
  change fun w => w.log .trace "opened scanner" [("len", toString text.utf8ByteSize)]
  pure s

/-! ## The program -/

def program (c : ContextId) : Operation ObjectRef := do
  c.object ((← world).context c).program

/-- The source files of the program. -/
def sourceFiles (c : ContextId) : Operation (List Node) := do
  let r ← c.program
  (c.call r "getSourceFiles" []
    (Conversion.plainList c (c.resolve .node))).located "program"

/-- The source file of a name, if the program has one. -/
def sourceFile (c : ContextId) (name : String) : Operation (Option Node) := do
  let r ← c.program
  (c.callNullable r "getSourceFile" [.ofString name] (c.resolve .node)).located "program"

def close (c : ContextId) : Operation Unit := do
  match ← act (World.tearDown c) with
  | .ok _ => pure ()
  | .error e => fail (.lifetime e)

end ContextId

end ProxySession
