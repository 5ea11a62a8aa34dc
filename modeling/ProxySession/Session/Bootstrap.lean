import ProxySession.Session.Access.SyntaxTree

/-!
# Opening a context

A context is made from the result of a parse: an object with the program, the checker (or a program
that can make one), the scanner factory, the node numbering, perhaps a walker of children, and the
table of syntax kinds. The fields are read in this order and the first one that does not fit is the
error. No context exists yet, so whatever foreign code throws here is a foreign failure.
-/

namespace ProxySession

open Effect

namespace Bootstrap

/-- A foreign operation before there is a context. -/
def foreign {α : Type} (x : Eval α) : Operation α :=
  x.handle fun thrown => do fail (.foreign (← Eval.thrownText thrown))

def field (r : ObjectRef) (name : String) : Operation Value :=
  (foreign (Eval.getProperty r (.ofString name))).located name

/-- A field that is absent or a function. -/
def functionField (r : ObjectRef) (name : String) : Operation (Option Value) := do
  let v ← field r name
  (Conversion.nullable Operation.function v).located name

/-- A field that is absent or an object. -/
def objectField (r : ObjectRef) (name : String) : Operation (Option ObjectRef) := do
  let v ← field r name
  (Conversion.nullable (Operation.object "object") v).located name

/-- A field that must not be absent. -/
def required {α : Type} (name : String) (x : Operation (Option α)) : Operation α := do
  match ← x with
  | some a => pure a
  | none => fail (.located name .missingValue)

/-- The checker: a field of the parse result, or what the program makes. -/
def checkerOf (parse program : ObjectRef) : Operation ObjectRef := do
  match ← objectField parse "checker" with
  | some r => pure r
  | none =>
    let make ← required "program.getTypeChecker" (functionField program "getTypeChecker")
    Effect.located "program.getTypeChecker" do
      Operation.object "object" (← foreign (Eval.callValue make (.object program) []))

/-! ## Syntax kinds -/

/-- The name that a key gives to a syntax kind: its characters before the first that is zero. -/
def kindName (key : Units) : Except Nat String :=
  Units.decode ⟨key.codes.takeWhile (· != 0)⟩

/-- The entries of a table of syntax kinds under the given keys. Symbols and properties that hold no
number are skipped; a number that is no 32-bit integer is an error. -/
def kindEntries (r : ObjectRef) : List PropertyKey → Operation (List (String × Int32))
  | [] => pure []
  | .symbol _ :: rest => kindEntries r rest
  | .text key :: rest => do
    let name ← match kindName key with
      | .ok name => pure name
      | .error offset => fail (.brokenText offset)
    let v ← foreign (Eval.getProperty r (.text key))
    match v.number? with
    | none => kindEntries r rest
    | some x =>
      match v.exactInt32? with
      | some code => do
        let entries ← kindEntries r rest
        pure ((name, code) :: entries)
      | none =>
        fail (.located name (.shapeMismatch "32-bit integer" (NumberStyle.plain.write x)))

/-- The table of syntax kinds that an object holds. -/
def kindTable (r : ObjectRef) : Operation KindTable := do
  let keys := ((← world).heap.object r).enumerableKeys
  pure (.ofEntries (← kindEntries r keys))

/-! ## Contexts -/

/-- What a parse result provides. -/
structure Parts where
  program : ObjectRef
  checker : ObjectRef
  scannerFactory : Value
  nodeId : Value
  forEachChild : Option Value
  kinds : KindTable

/-- Reads the parts of a parse result. -/
def parts (parse : ObjectRef) : Operation Parts := do
  let program ← required "program" (objectField parse "program")
  let checker ← checkerOf parse program
  let scannerFactory ← required "createScanner" (functionField parse "createScanner")
  let nodeId ← required "getNodeId" (functionField parse "getNodeId")
  let forEachChild ← functionField parse "forEachChild"
  let kindsObject ← required "syntaxKinds" (objectField parse "syntaxKinds")
  let kinds ← (kindTable kindsObject).located "syntaxKinds"
  pure { program, checker, scannerFactory, nodeId, forEachChild, kinds }

/-- A function that gives each object a token in order of first sight. -/
def newIdentityToken {ε : Type} : Effect ε Value := do
  let i ← act fun w => (w.numberings.size, { w with numberings := w.numberings.push .empty })
  let r ← Eval.alloc { label := none, kind := .tokenSource i, properties := [] }
  pure (.object r)

/-- The first handles of a context, in the order in which they are retained. -/
def initialSlots (p : Parts) (identityToken : Value) : List Value :=
  [.object p.program, .object p.checker, p.scannerFactory, p.nodeId, identityToken]
    ++ p.forEachChild.toList

/-- A new context with its first handles. -/
def newContext (p : Parts) (identityToken : Value) (rules : IdentityRules) : Context where
  rules := rules
  custodian :=
    { name := "program context"
      slots := ((initialSlots p identityToken).map some).toArray
      resources := []
      closed := false }
  program := ⟨0⟩
  checker := ⟨1⟩
  scannerFactory := ⟨2⟩
  nodeId := ⟨3⟩
  identityToken := ⟨4⟩
  forEachChild := p.forEachChild.map fun _ => ⟨5⟩
  kinds := p.kinds
  nodes := .new ProxyKind.node.mapName
  types := .new ProxyKind.type.mapName
  symbols := .new ProxyKind.symbol.mapName
  signatures := .new ProxyKind.signature.mapName
  pending := []
  lastTag := 0
  references := 1

end Bootstrap

/-- Opens a context from a parse result. The caller holds its one reference. -/
def ContextId.open (parse : ObjectRef) (rules : IdentityRules) : Operation ContextId := do
  let p ← Bootstrap.parts parse
  let identityToken ← Bootstrap.newIdentityToken
  act fun w =>
    let w := w.log .debug "created program context"
      [("syntax_kinds", toString p.kinds.size),
        ("for_each_child", toString p.forEachChild.isSome), ("options", rules.debug)]
    (⟨w.contexts.size⟩,
      { w with contexts := w.contexts.push (Bootstrap.newContext p identityToken rules) })

end ProxySession
