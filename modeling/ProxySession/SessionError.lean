/-!
# Errors of a session

A `LifetimeError` is a misuse of handles: one used after its owner was torn down, an owner closed
twice. A `SessionError` is any failure of a session operation. `SessionError.located` wraps a
failure with the field, method or element where it arose; the wrappers read outermost first, and
`SessionError.root` is what remains without them.
-/

namespace ProxySession

/-- A violation of the ownership of handles. -/
inductive LifetimeError where
  | retainAfterClose (owner : String)
  | closedTwice (owner : String)
  /-- A handle was resolved after it or its owner was given up. -/
  | useAfterClose (owner : String)
  | releasedTwice (owner : String) (index : UInt32)
  /-- The owner never issued this handle. -/
  | unknownHandle (owner : String) (index : UInt32)
  /-- A proxy outlived the context that made it. -/
  | contextDropped
deriving DecidableEq

namespace LifetimeError

def message : LifetimeError → String
  | .retainAfterClose owner => owner ++ ": retain after close"
  | .closedTwice owner => owner ++ ": closed twice"
  | .useAfterClose owner => owner ++ ": handle used after close"
  | .releasedTwice owner index =>
    owner ++ ": handle " ++ toString index.toNat ++ " released twice"
  | .unknownHandle owner index => owner ++ ": unknown handle " ++ toString index.toNat
  | .contextDropped => "program context was dropped"

def kindName : LifetimeError → String
  | .retainAfterClose _ => "RetainAfterClose"
  | .closedTwice _ => "ClosedTwice"
  | .useAfterClose _ => "UseAfterClose"
  | .releasedTwice _ _ => "ReleasedTwice"
  | .unknownHandle _ _ => "UnknownHandle"
  | .contextDropped => "ContextDropped"

end LifetimeError

/-- A failure of a session operation. -/
inductive SessionError where
  /-- Foreign code threw; the message is the text of what it threw. -/
  | foreign (message : String)
  /-- A foreign value does not have the shape that a conversion needs. -/
  | shapeMismatch (expected actual : String)
  /-- A required value is null or undefined. -/
  | missingValue
  /-- A narrowing found another dynamic kind. -/
  | kindMismatch (expected actual : String)
  /-- A code without an entry in its table. -/
  | unknownCode (table : String) (code : Int)
  | lifetime (error : LifetimeError)
  /-- A runtime or a context could not be set up. -/
  | setup (message : String)
  /-- The failure arose at a field, method or element. -/
  | located (site : String) (inner : SessionError)
deriving DecidableEq

namespace SessionError

def message : SessionError → String
  | .foreign text => "foreign call failed: " ++ text
  | .shapeMismatch expected actual =>
    "shape mismatch: expected " ++ expected ++ ", found " ++ actual
  | .missingValue => "required value is null or undefined"
  | .kindMismatch expected actual =>
    "kind mismatch: expected " ++ expected ++ ", found " ++ actual
  | .unknownCode table code => "unknown " ++ table ++ " code " ++ toString code
  | .lifetime error => error.message
  | .setup text => "setup failed: " ++ text
  | .located site inner => "`" ++ site ++ "`: " ++ inner.message

/-- The failure without its locations. -/
def root : SessionError → SessionError
  | .located _ inner => inner.root
  | e => e

/-- The locations, outermost first. -/
def sites : SessionError → List String
  | .located site inner => site :: inner.sites
  | _ => []

/-- The failure to convert a text with a stray surrogate after `offset` bytes. -/
def brokenText (offset : Nat) : SessionError :=
  .foreign ("Conversion from string failed: invalid utf-8 sequence of 1 bytes from index "
    ++ toString offset)

def isLifetime (e : SessionError) : Bool :=
  match e.root with
  | .lifetime _ => true
  | _ => false

/-- The name of the kind of failure, the same at every location. -/
def kindName : SessionError → String
  | .foreign _ => "Foreign"
  | .shapeMismatch _ _ => "ShapeMismatch"
  | .missingValue => "MissingValue"
  | .kindMismatch _ _ => "KindMismatch"
  | .unknownCode _ _ => "UnknownCode"
  | .lifetime error => "Lifecycle." ++ error.kindName
  | .setup _ => "Setup"
  | .located _ inner => inner.kindName

end SessionError

end ProxySession
