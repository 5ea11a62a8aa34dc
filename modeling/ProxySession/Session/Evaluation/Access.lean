import ProxySession.Session.Effect

/-!
# Calls and properties

Calling functions and reading, defining and assigning properties. Entering a function of the heap,
reading through a getter and entering a host function are recorded as crossings. Each call takes a
part of the engine's stack, so foreign code cannot nest without end.
-/

namespace ProxySession

/-- Foreign code; it fails with the value that it throws. -/
abbrev Eval (α : Type) := Effect Value α

namespace Eval

open Effect

/-- Makes a new object. -/
def alloc {ε : Type} (o : Object) : Effect ε ObjectRef := act fun w =>
  let (r, heap) := w.heap.alloc o
  (r, { w with heap })

def changeHeap {ε : Type} (f : Heap → Heap) : Effect ε Unit :=
  change fun w => { w with heap := f w.heap }

/-- Makes a new symbol. -/
def newSymbol {ε : Type} (description : Option Units) : Effect ε Value := act fun w =>
  let (v, heap) := w.heap.newSymbol description
  (v, { w with heap })

/-! ## Errors -/

/-- Makes a new error object with this message. -/
def newError {ε : Type} (message : Value) : Effect ε ObjectRef := alloc (.error message)

/-- The stack of a new error: a line while foreign code is running. -/
def stackTrace {ε : Type} : Effect ε Property := do
  let lines := if (← room) < stackSize then "    at <anonymous>\n" else ""
  pure (Object.hidden "stack" (.ofString lines))

/-- Makes a new error object of the engine. -/
def newEngineError (family : Family) (properties : List Property) : Eval ObjectRef := do
  let parent := (← world).heap.ancestor family
  let properties := properties ++ [← stackTrace]
  alloc { label := none, kind := .error, properties, parent }

/-- Throws a new error object. -/
def raiseError {α : Type} (message : String) : Eval α := do
  fail (.object (← newError (.ofString message)))

/-- Throws a new error object of the engine. -/
def raise {α : Type} (family : Family) (message : String) : Eval α := do
  fail (.object (← newEngineError family [Object.hidden "message" (.ofString message)]))

/-- Throws a new type error. -/
def raiseTypeError {α : Type} (message : String) : Eval α := raise .typeError message

/-! ## The stack -/

/-- What a getter takes of the stack. -/
def getterSize : Nat := 4300

/-- What a call takes of the stack. -/
def callSize : Nat := 4500

/-- What an expression takes of the stack while it is evaluated. -/
def expressionSize : Nat := 3100

/-- What copying an object takes of the stack. -/
def copySize : Nat := 3380

/-- Runs foreign code that takes a part of the stack. -/
def nested {α : Type} (size : Nat) (x : Eval α) : Eval α := do
  if (← room) < size then
    raise .rangeError "Maximum call stack size exceeded"
  else
    taking size x

/-! ## Calls -/

/-- The token of an object: its number in a numbering, counted in binary64. -/
def identityToken (i : Nat) (r : ObjectRef) : Eval Value := act fun w =>
  let (n, numbering) := (w.numberings.getD i .empty).number r
  (.ofBinary64 (.ofInt (min n (Nat.pow 2 53) : Nat)),
    { w with numberings := w.numberings.setIfInBounds i numbering })

/-- Calls a function object. -/
def callFunction (f : ObjectRef) (c : Callable) (receiver : Value) (arguments : List Value) :
    Eval Value :=
  match c with
  | .body _ | .scannerMethod _ _ => nested callSize do
    change fun w =>
      w.cross (.call (.text (w.labelOf f)) (w.showValue receiver) (arguments.map w.showValue))
    run c receiver arguments
  | .getter key _ => nested getterSize do
    change fun w => w.cross (.get (w.showValue receiver) key.shown)
    run c receiver arguments
  | .builtIn _ | .bound _ _ _ => nested callSize (run c receiver arguments)
  | .host _ => run c receiver arguments

/-- Calls a value, which has to be a function. -/
def callValue (f receiver : Value) (arguments : List Value) : Eval Value := do
  match (← world).heap.callable? f with
  | some (r, c) => callFunction r c receiver arguments
  | none => raiseError "not a function"

/-- Calls a value for the engine, whose own error tells of what is no function. -/
def apply (f receiver : Value) (arguments : List Value) : Eval Value := do
  match (← world).heap.callable? f with
  | some (r, c) => callFunction r c receiver arguments
  | none => raiseTypeError "not a function"

/-! ## Properties -/

/-- The object that a value refers to; anything else is thrown at. -/
def requireObject : Value → Eval ObjectRef
  | .object r => pure r
  | _ => raiseError "not an object"

/-- Reads what a value provides under a key. -/
def read (v : Value) (key : PropertyKey) : Eval Value := do
  match (← world).heap.provided v key with
  | none | some (.accessor none _) => pure .undefined
  | some (.data x) | some (.constant x) => pure x
  | some (.accessor (some getter) _) => apply (.object getter) v []

/-- Throws at a property of a value that has none. -/
def raiseUnreadable {α : Type} (key : PropertyKey) (value : String) : Eval α :=
  raiseTypeError ("cannot read property '" ++ key.shown ++ "' of " ++ value)

/-- Reads a property of a value, which must not be absent. -/
def readMember (v : Value) (key : PropertyKey) : Eval Value :=
  match v with
  | .undefined => raiseUnreadable key "undefined"
  | .null => raiseUnreadable key "null"
  | v => read v key

/-- Reads a property of an object. -/
def getProperty (r : ObjectRef) (key : PropertyKey) : Eval Value := read (.object r) key

/-- Defines a property of an object. -/
def defineProperty (r : ObjectRef) (p : Property) : Eval Unit := do
  if ((← world).heap.object r).isFixed p.key then
    raiseTypeError "property is not configurable"
  else
    changeHeap fun heap => heap.update r fun o => o.define p

/-- Defines an enumerable property that holds a value. -/
def setProperty (r : ObjectRef) (key : PropertyKey) (v : Value) : Eval Unit :=
  defineProperty r ⟨key, .data v, true⟩

/-- Assigns a value to a property, which may be one that an object inherits. -/
def assign (r : ObjectRef) (key : PropertyKey) (v : Value) : Eval Unit := do
  match (← world).heap.lookup r key with
  | some (.accessor _ (some setter)) =>
    let _ ← apply (.object setter) (.object r) [v]
  | some (.accessor _ none) => raiseTypeError "no setter for property"
  | some (.constant _) => raiseTypeError ("'" ++ key.shown ++ "' is read-only")
  | _ => setProperty r key v

end Eval

end ProxySession
