import ProxySession.Session.Evaluation.Thrown
import ProxySession.Session.Lifetime

/-!
# Foreign operations of a context

A context reads properties and calls functions of the foreign side and turns what foreign code
throws into errors of the session. A failure of a host function travels through foreign code as a
tagged error object, while the failure itself waits in the context under its tag: if the tagged
object is what escapes, the failure comes back unchanged. A successful call and every failure end
the wait of all failures that are pending.
-/

namespace ProxySession

/-- A session operation. -/
abbrev Operation (α : Type) := Effect SessionError α

namespace Operation

open Effect

def shapeMismatch {α : Type} (expected : String) (v : Value) : Operation α := do
  fail (.shapeMismatch expected ((← world).heap.typeName v))

/-- The object that a value refers to. -/
def object (expected : String) : Value → Operation ObjectRef
  | .object r => pure r
  | v => shapeMismatch expected v

/-- The function that a value refers to. -/
def function (v : Value) : Operation Value := do
  if (← world).heap.isFunction v then pure v else shapeMismatch "function" v

end Operation

namespace ContextId

open Effect

/-! ## Keeping a context alive -/

/-- Runs an operation that keeps the context alive until it ends. -/
def keeping {ε α : Type} (c : ContextId) (x : Effect ε α) : Effect ε α := do
  change (World.holdContext c)
  x.eventually (World.dropContext c)

/-- Runs an operation of something that refers to the context without keeping it alive. -/
def entering {α : Type} (c : ContextId) (x : Operation α) : Operation α := do
  if ((← world).context c).references = 0 then
    fail (.lifetime .contextDropped)
  else
    c.keeping x

/-! ## Handles -/

/-- The value behind a handle of the context. -/
def value (c : ContextId) (id : HandleId) : Operation Value := do
  match ((← world).context c).custodian.get id with
  | .ok v => pure v
  | .error e => fail (.lifetime e)

def object (c : ContextId) (id : HandleId) : Operation ObjectRef := do
  Operation.object "object" (← c.value id)

/-- The function behind a handle of the context. -/
def function (c : ContextId) (id : HandleId) : Operation Value := do
  Operation.function (← c.value id)

/-- Retains a value in the context. -/
def retain (c : ContextId) (v : Value) : Operation HandleId := do
  match ((← world).context c).custodian.retainHandle v with
  | .ok (id, custodian) =>
    change fun w => w.updateContext c fun cx => { cx with custodian }
    pure id
  | .error e => fail (.lifetime e)

/-! ## Failures of foreign code -/

/-- Takes the pending failures out of the context. -/
def takePending {ε : Type} (c : ContextId) : Effect ε (List HostFailure) := act fun w =>
  ((w.context c).pending, w.updateContext c fun cx => { cx with pending := [] })

/-- The property of an error object that holds the tag of a host function's failure. -/
def tagProperty : PropertyKey := .ofString "__bridgeHostError"

/-- The tag of a thrown value. -/
def thrownTag (thrown : Value) : Operation (Option Binary64) := do
  match thrown with
  | .object r =>
    if (← world).heap.isError thrown then
      match ← (Eval.getProperty r tagProperty).attempt with
      | .ok v => pure v.number?
      | .error _ => pure none
    else
      pure none
  | _ => pure none

/-- The failure of a host function that a thrown value stands for: one that waits under the tag of
the value. -/
def recovered (c : ContextId) (thrown : Value) : Operation (Option HostFailure) := do
  let pending ← c.takePending
  let tag ← thrownTag thrown
  pure (pending.find? fun failure => tag.any fun x => x.numEq (.ofInt failure.tag))

/-- The error that a thrown value stands for: the failure of a host function, or a foreign failure
with the value's text. -/
def foreignError (c : ContextId) (thrown : Value) : Operation SessionError := do
  match ← c.recovered thrown with
  | some failure => pure failure.error
  | none => .foreign <$> Eval.thrownText thrown

/-- Fails with an error of the engine itself, which no host function can have raised. -/
def engineFailure {α : Type} (c : ContextId) (e : SessionError) : Operation α := do
  let _ ← c.takePending
  fail e

/-- A foreign read: what it throws becomes an error. -/
def reading {α : Type} (c : ContextId) (x : Eval α) : Operation α :=
  x.handle fun thrown => do fail (← c.foreignError thrown)

/-- A foreign call: what it throws becomes an error, and a success ends the wait of the failures
that foreign code recovered from. -/
def calling {α : Type} (c : ContextId) (x : Eval α) : Operation α := do
  let a ← c.reading x
  let _ ← c.takePending
  pure a

/-! ## Reads and calls -/

def property (c : ContextId) (r : ObjectRef) (name : String) : Operation Value :=
  c.reading (Eval.getProperty r (.ofString name))

/-- An element of an array. -/
def element (c : ContextId) (r : ObjectRef) (i : Nat) : Operation Value :=
  c.reading (Eval.getProperty r (.ofIndex i))

def callFunction (c : ContextId) (f : Value) (arguments : List Value) : Operation Value :=
  c.calling (Eval.callValue f .undefined arguments)

def callMethod (c : ContextId) (r : ObjectRef) (method : String) (arguments : List Value) :
    Operation Value := do
  let f ← Operation.function (← c.property r method)
  c.calling (Eval.callValue f (.object r) arguments)

/-- Reads a property as it is. -/
def get (c : ContextId) (r : ObjectRef) (name : String) : Operation Value :=
  (c.property r name).located name

/-- Calls a method and answers with the value as it is. -/
def invoke (c : ContextId) (r : ObjectRef) (method : String) (arguments : List Value) :
    Operation Value :=
  (c.callMethod r method arguments).located method

/-- Makes a foreign function that runs a host function. -/
def newHostFunction (c : ContextId) (behaviour : HostBehaviour) : Operation ObjectRef := do
  let h : HostId ← act fun w =>
    (⟨w.hostFunctions.size⟩,
      { w with hostFunctions := w.hostFunctions.push { context := c, behaviour } })
  let parent := (← world).heap.ancestor .function
  Eval.alloc
    { label := none, kind := .function (.host h), properties := [Object.parameters 0], parent }

end ContextId

/-- The foreign form of a host value. -/
def HostValue.toForeign : HostValue → Value
  | .int32 n => .int n
  | .uint32 n => .int n.toInt32
  | .number x => .ofBinary64 x
  | .bool b => .bool b
  | .text s => .ofString s

end ProxySession
