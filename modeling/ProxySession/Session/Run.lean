import ProxySession.Session.Bootstrap
import ProxySession.Session.Evaluation.Body
import ProxySession.Session.Evaluation.BuiltIn
import ProxySession.Session.Query
import ProxySession.Session.ScannerMethods

/-!
# Running steps

A step keeps what it operates on alive until it ends, runs its command, and stores or gives up the
result. The body of a host function runs as steps inside a foreign call; `Engine.ofFuel` ties the
levels of nesting together.
-/

namespace ProxySession

open Effect

/-! ## Arguments and variables -/

namespace Argument

/-- The foreign value of an argument. -/
def value? : Argument → Operation Value
  | .value v => pure v
  | .symbol description => Eval.newSymbol description
  | .variable name => namedItem name fun
    | .foreign v => some v
    | _ => none

def values : List Argument → Operation (List Value) := collect value?

/-- The object of an argument. -/
def object (a : Argument) : Operation ObjectRef := do
  match ← a.value? with
  | .object r => pure r
  | _ => senseless

end Argument

/-- Runs an operation on an item that is kept alive until the operation ends. -/
def withItem {α : Type} (name : String) (x : Item → Operation α) : Operation α := do
  let item ← namedItem name some
  change (World.hold item)
  (x item).eventually (World.drop item)

/-- Runs an operation in the context that a variable holds. -/
def inContext {α : Type} (name : String) (x : ContextId → Operation α) : Operation α :=
  withItem name fun
    | .context c => x c
    | _ => senseless

/-! ## Identity maps and custodians of their own -/

mutual

/-- Runs a look-up, whose creation makes the inner look-ups first. -/
def Lookup.run (map : MapLens String) : Lookup → Operation String
  | .mk key before outcome => map.intern key do
    change fun w => w.cross (.create key)
    Lookup.runAll map before
    ofExcept outcome

def Lookup.runAll (map : MapLens String) : List Lookup → Operation Unit
  | [] => pure ()
  | l :: rest => do
    let _ ← l.run map
    Lookup.runAll map rest

end

namespace MapCommand

def run (i : Nat) : MapCommand → Operation Item
  | .kind => do pure (.text ((← world).mapAt i).kind)
  | .size => do pure (.int ((← world).mapAt i).size)
  | .isEmpty => do pure (.bool ((← world).mapAt i).isEmpty)
  | .get key => do pure (.option .text (((← world).mapAt i).get? key))
  | .intern lookup => .text <$> lookup.run (.ofIndex i)

end MapCommand

/-- Closes a resource, which fails if it was made to. -/
def World.closeResource (r : ResourceId) : StateM World (Except SessionError Unit) := do
  match (← get).resources[r.index]? with
  | some resource =>
    modify fun w => w.cross (.close resource.name)
    match resource.failure with
    | some e => pure (.error e)
    | none => pure (.ok ())
  | none => pure (.ok ())

def World.isFinished (w : World) (r : ResourceId) : Bool :=
  match w.resources[r.index]? with
  | some resource => resource.finished
  | none => true

namespace CustodianCommand

/-- Replaces a custodian by the outcome of an operation on it. -/
def update {α : Type} (i : Nat)
    (f : Custodian ResourceId → Except LifetimeError (α × Custodian ResourceId)) : Operation α := do
  match f ((← world).custodian i) with
  | .ok (a, custodian) =>
    change fun w => w.setCustodian i custodian
    pure a
  | .error e => fail (.lifetime e)

/-- The slot that an item names. -/
def handle? : Item → Option HandleId
  | .handle id => some id
  | .retained (.handle id) => some id
  | _ => none

def retained? : Item → Option Retained
  | .retained r => some r
  | .handle id => some (.handle id)
  | _ => none

def run (i : Nat) : CustodianCommand → Operation Item
  | .name => do pure (.text ((← world).custodian i).name)
  | .isClosed => do pure (.bool ((← world).custodian i).closed)
  | .liveHandles => do pure (.int ((← world).custodian i).liveHandles)
  | .trackedResources => do pure (.int ((← world).custodian i).resources.length)
  | .close => do
    let custodian := (← world).custodian i
    match ← act (World.closeCustodian custodian World.closeResource) with
    | .ok custodian =>
      change fun w => w.setCustodian i custodian
      pure .nothing
    | .error e => fail (.lifetime e)
  | .retain v => do
    let v ← v.value?
    .retained <$> update i fun c => c.retain v
  | .retainObject v => do
    let r ← v.object
    .handle <$> update i fun c => c.retainHandle (.object r)
  | .retainHandle v => do
    let v ← v.value?
    .handle <$> update i fun c => c.retainHandle v
  | .get handle => do
    let id ← namedItem handle handle?
    match ((← world).custodian i).get id with
    | .ok v => pure (.foreign v)
    | .error e => fail (.lifetime e)
  | .release handle => do
    let id ← namedItem handle handle?
    update i fun c => (c.release id).map fun c => ((), c)
    pure .nothing
  | .resolve handle => do
    let r ← namedItem handle retained?
    match ((← world).custodian i).resolve r with
    | .ok v => pure (.foreign v)
    | .error e => fail (.lifetime e)
  | .track label failure finished => do
    let w ← world
    update i fun c => (c.track w.isFinished ⟨w.resources.size⟩).map fun c => ((), c)
    change fun w =>
      { w with resources := w.resources.push { name := label, failure, finished } }
    pure .nothing

end CustodianCommand

/-- From now on the resource of this name that was tracked last counts as finished. -/
def World.finish (name : String) (w : World) : World :=
  match (w.resources.toList.zipIdx.filter fun r => r.1.name == name).getLast? with
  | some (_, i) => { w with resources := w.resources.modify i ({ · with finished := true }) }
  | none => w

/-! ## Commands -/

/-- The result of reading a settings document. -/
def settingsReport {α : Type} (read : Document → Option α) (shown : α → Shown) (debug : α → String)
    (text : String) : Item :=
  .report (match (Document.parse? text).bind read with
    | some o => .record [("json", shown o), ("debug", .text (debug o))]
    | none => .record [("error", .text "Options")])

namespace Command

/-- Runs a command. The caller owns the result. -/
def run (context : String) (label : Option String) : Command → Operation Item
  | .open parse rules => do
    .context <$> ContextId.open (← parse.object) rules
  | .close => inContext context fun c => do
    c.close
    pure .nothing
  | .isClosed => inContext context fun c => do
    pure (.bool ((← world).context c).custodian.closed)
  | .program => inContext context fun c => .object <$> c.program
  | .sourceFiles => inContext context fun c => .proxies <$> c.sourceFiles
  | .sourceFile name => inContext context fun c => .option .proxy <$> c.sourceFile name
  | .scanner text => inContext context fun c => .scanner <$> c.scanner text
  | .identityRules => inContext context fun c => do
    pure (.report (.identityRules ((← world).context c).rules))
  | .kinds => inContext context fun c => do
    pure (.table ((← world).context c).kinds)
  | .state => inContext context fun c => do
    pure (.report ((← world).contextState c))
  | .get on name => inContext context fun c => do
    .foreign <$> c.get (← on.object) name
  | .read on name conv nullable => inContext context fun c => do
    let r ← on.object
    if nullable then .option id <$> c.readNullable r name (conv.convert c)
    else c.read r name (conv.convert c)
  | .invoke on method arguments => inContext context fun c => do
    let r ← on.object
    .foreign <$> c.invoke r method (← Argument.values arguments)
  | .call on method arguments conv nullable => inContext context fun c => do
    let r ← on.object
    let vs ← Argument.values arguments
    if nullable then .option id <$> c.callNullable r method vs (conv.convert c)
    else c.call r method vs (conv.convert c)
  | .convert value conv mode => inContext context fun c => do
    conv.apply c mode (← value.value?)
  | .resolve kind value => inContext context fun c => do
    .proxy <$> c.resolve kind (← value.value?)
  | .toForeign value => inContext context fun _ => pure (.foreign value.toForeign)
  | .hostFunction body => inContext context fun c => do
    let r ← c.newHostFunction (.run (label.getD "host") body)
    Eval.changeHeap fun heap => heap.update r fun o => { o with label }
    pure (.object r)
  | .checker q => inContext context fun c => q.answer c.checker
  | .drop name => do
    change (World.removeVariable name)
    pure .nothing
  | .clone name => do
    let item ← namedItem name some
    change (World.hold item)
    pure item
  | .same a b => do
    let x ← namedItem a some
    let y ← namedItem b some
    pure (.bool (x.same y))
  | .distinct names => do
    let items ← collect (fun name => namedItem name some) names
    pure (.int (Item.distinctCount items))
  | .query on q => withItem on q.answer
  | .tableOfEntries entries => pure (.table (.ofEntries entries))
  | .tableOfObject value => do .table <$> Bootstrap.kindTable (← value.object)
  | .table on q => do
    let t ← namedItem on fun
      | .table t => some t
      | _ => none
    pure (q.answer t)
  | .newMap kind => act fun w =>
    (.identityMap w.maps.size, { w with maps := w.maps.push (.new kind) })
  | .identityMap on command => do
    let i ← namedItem on fun
      | .identityMap i => some i
      | _ => none
    command.run i
  | .newCustodian name => act fun w =>
    (.custodian w.custodians.size, { w with custodians := w.custodians.push (.new name) })
  | .custodian on command => do
    let i ← namedItem on fun
      | .custodian i => some i
      | _ => none
    command.run i
  | .finish resource => do
    change (World.finish resource)
    pure .nothing
  | .handleIndex handle => do
    let id ← namedItem handle CustodianCommand.handle?
    pure (.int id.index.toNat)
  | .errorFacts e => pure (.report (.errorFacts e))
  | .flagNamed family name =>
    pure (.option (fun a => .report (.namedFlagWord a)) (family.named? name))
  | .flagFacts family bits other =>
    pure (.report (.flagFacts (⟨bits⟩ : FlagWord family) (other.map fun b => ⟨b⟩)))
  | .scriptKind code =>
    pure (.option (fun (k : ScriptKind) => .text k.name) (ScriptKind.ofCode? code))
  | .signatureKind code =>
    pure (.option (fun (k : SignatureKind) =>
      .report (.record [("kind", .text k.name), ("code", .int k.code.toInt)]))
      (SignatureKind.ofCode? code))
  | .runtimeLimits limits => pure (.report (.runtimeLimits limits))
  | .readRuntimeLimits text =>
    pure (settingsReport RuntimeLimits.ofJson? .runtimeLimits RuntimeLimits.debug text)
  | .readIdentityRules text =>
    pure (settingsReport IdentityRules.ofJson? .identityRules IdentityRules.debug text)

end Command

namespace Step

/-- Runs a step and answers with its result as it is shown: after the variable has given up what it
held, and before a result that is not stored goes. -/
def run : Step → Operation Shown
  | .mk command context store => Effect.marked do
    let item ← command.run context store
    match store with
    | some name =>
      change (World.store name item)
      pure ((← world).showItem item)
    | none =>
      let shown := (← world).showItem item
      change (World.drop item)
      pure shown

end Step

/-! ## Host functions -/

/-- The variable of an argument of a host function. -/
def argumentName (i : Nat) : String := "$" ++ toString i

/-- Sets the variables of the arguments. -/
def storeArguments (arguments : List Value) (w : World) : World :=
  arguments.zipIdx.foldl (fun w (v, i) => w.store (argumentName i) (.foreign v)) w

/-- Runs the body of a host function. -/
def HostBody.run (arguments : List Value) : HostBody → Operation Value
  | .done => pure .undefined
  | .step s rest => do
    change (storeArguments arguments)
    let shown ← s.run
    change fun w => w.cross (.step shown)
    rest.run arguments
  | .fail e => Effect.fail e
  | .answer v => v.value?
  | .answerArgument i => pure (arguments.getD i .undefined)

/-- What a host function does with its arguments. -/
def HostBehaviour.perform (arguments : List Value) : HostBehaviour → Operation Value
  | .run name body => do
    change fun w => w.cross (.host name (arguments.map w.showValue))
    body.run arguments
  | .collect collection => do
    change (World.visit collection arguments)
    pure .undefined

/-- Makes an error object for what went wrong in the host. Its message is enumerable. -/
def newHostError (message : String) : Eval ObjectRef := do
  let properties := [← Eval.stackTrace, ⟨Object.messageKey, .data (.ofString message), true⟩]
  let parent := (← world).heap.ancestor .error
  Eval.alloc { label := none, kind := .error, properties, parent }

/-- Throws the failure of a host function: an error object with its message and a new tag, under
which the failure waits in the context. -/
def throwHostFailure (c : ContextId) (e : SessionError) : Eval Value := do
  let r ← newHostError e.message
  let tag := ((← world).context c).lastTag + 1
  change (World.recordHostFailure ⟨c, tag, e, r⟩)
  Eval.setProperty r ContextId.tagProperty (.ofBinary64 (.ofInt tag))
  fail (.object r)

/-- Enters a host function from foreign code. -/
def HostFunction.enter (f : HostFunction) (arguments : List Value) : Eval Value := do
  if ((← world).context f.context).references = 0 then
    let e := LifetimeError.contextDropped
    fail (.object (← newHostError e.message))
  else
    f.context.keeping do
      match ← (f.behaviour.perform arguments).attempt with
      | .ok v => pure v
      | .error e => throwHostFailure f.context e

/-- Enters the host function of a number. -/
def HostId.enter (h : HostId) (arguments : List Value) : Eval Value := do
  match (← world).hostFunctions[h.index]? with
  | some f => f.enter arguments
  | none => pure .undefined

/-! ## Levels of nesting -/

/-- Runs a function with a receiver and arguments. -/
def Callable.enter (c : Callable) (receiver : Value) (arguments : List Value) : Eval Value :=
  match c with
  | .body e | .getter _ e => Eval.eval ⟨receiver, arguments, .undefined⟩ e
  | .scannerMethod i method => Eval.runScannerMethod i arguments method
  | .builtIn b => Eval.runBuiltIn receiver arguments b
  | .bound f self first => Eval.apply (.object f) self (first ++ arguments)
  | .host h => h.enter arguments

/-- The engine with `n` levels of nesting and `room` left on its stack. -/
def Engine.ofFuel : Nat → Nat → Engine
  | 0, room => { fuel := 0, room, run := fun _ _ _ _ w => (.error .exhausted, w) }
  | n + 1, room =>
    { fuel := n + 1
      room
      run := fun room c receiver arguments w =>
        (c.enter receiver arguments).marked (Engine.ofFuel n room) w }

end ProxySession
