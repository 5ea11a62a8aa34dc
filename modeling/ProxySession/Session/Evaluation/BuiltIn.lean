import ProxySession.Session.Evaluation.Primitive

/-!
# Running the functions of the engine

What each `BuiltIn` does with its receiver and its arguments.
-/

namespace ProxySession

namespace Eval

open Effect

/-- The texts one after the other. -/
def joined (ts : List Units) : Value := .text ⟨ts.flatMap Units.codes⟩

/-- A value as an object: a primitive gets a wrapper. -/
def toObject : Value → Eval ObjectRef
  | .object r => pure r
  | .undefined | .null => raiseTypeError "Cannot convert undefined or null to object"
  | v => do alloc ((← world).heap.wrapper v)

/-- A value that has to be a function. -/
def requireFunction (v : Value) : Eval ObjectRef := do
  match (← world).heap.callable? v with
  | some (r, _) => pure r
  | none => raiseTypeError "not a function"

/-! ## Objects -/

/-- The class of an object that has no name of its own for it. -/
def className (o : Object) : String :=
  match o.kind with
  | .array _ => "Array"
  | .function _ | .constructor _ => "Function"
  | .error => "Error"
  | .wrapper (.text _) => "String"
  | .wrapper (.int _) | .wrapper (.float _) => "Number"
  | .wrapper (.bool _) => "Boolean"
  | _ => "Object"

/-- The class of a value. -/
def classOf : Value → Eval Units
  | .undefined => pure (Units.ofString "Undefined")
  | .null => pure (Units.ofString "Null")
  | v => do
    let r ← toObject v
    match ← getProperty r (.symbol (← world).heap.tag) with
    | .text t => pure t
    | _ => pure (Units.ofString (className ((← world).heap.object r)))

/-- The property that a value has of its own under a key. -/
def ownProperty? (v : Value) (key : PropertyKey) : Eval (Option Property) := do
  let r ← toObject v
  pure (((← world).heap.object r).own? key)

/-- Whether an object descends from a value. -/
def descends (r : ObjectRef) (v : Value) : Eval Bool := do
  let ancestor ← toObject v
  pure (((← world).heap.lineage r).tail.contains ancestor)

/-- Gives an object a parent. The common ancestor of all keeps its own, and no object becomes an
ancestor of itself. -/
def setParent (r : ObjectRef) (parent : Option ObjectRef) : Eval Unit := do
  let heap := (← world).heap
  if (heap.object r).parent = parent then
    pure ()
  else if r = heap.ancestor .object then
    raiseTypeError
      "'Immutable prototype object 'Object.prototype' cannot have their prototype set'"
  else if parent.any fun p => r ∈ heap.lineage p then
    raiseTypeError "circular prototype chain"
  else
    changeHeap fun heap => heap.update r fun o => { o with parent }

/-- Gives a value a parent, if it is an object and the parent is an object or null. -/
def assignParent (v parent : Value) : Eval Unit :=
  match v, parent with
  | .undefined, _ | .null, _ => raiseTypeError "not an object"
  | .object r, .object p => setParent r (some p)
  | .object r, .null => setParent r none
  | _, _ => pure ()

/-- The functions behind a property that a value has or inherits. -/
def accessors (v key : Value) : Eval (Option ObjectRef × Option ObjectRef) := do
  let r ← toObject v
  let key ← keyOf key
  match (← world).heap.lookup r key with
  | some (.accessor get set) => pure (get, set)
  | _ => pure (none, none)

/-- A function, or undefined if there is none. -/
def ofFunction? : Option ObjectRef → Value
  | some r => .object r
  | none => .undefined

/-- Gives a value a property with functions behind it; it keeps those that are not given. -/
def defineAccessors (v key f : Value) (content : ObjectRef → Content → Content) : Eval Unit := do
  let r ← toObject v
  let f ← requireFunction f
  let key ← keyOf key
  let old := (((← world).heap.object r).lookup key).getD (.data .undefined)
  defineProperty r ⟨key, content f old, true⟩

/-- Lets a function compute a property. -/
def withGetter (f : ObjectRef) : Content → Content
  | .accessor _ set => .accessor (some f) set
  | _ => .accessor (some f) none

/-- Lets the assignments to a property go to a function. -/
def withSetter (f : ObjectRef) : Content → Content
  | .accessor get _ => .accessor get (some f)
  | _ => .accessor none (some f)

/-! ## Functions -/

/-- The text that describes a function. -/
def describeFunction (receiver : Value) : Eval Value := do
  let r ← requireFunction receiver
  let name ← match ← getProperty r Object.nameKey with
    | .undefined => pure (Units.ofString "")
    | v => textOf v
  pure (joined [Units.ofString "function ", name,
    Units.ofString "() \x7b\n    [native code]\n\x7d"])

/-- The number of arguments that a list may hold. -/
def argumentLimit : Nat := 65535

/-- The arguments in a list: what an object holds under the indices below its length. -/
def argumentList : Value → Eval (List Value)
  | .undefined | .null => pure []
  | .object r => do
    let length := (← numberOf (← getProperty r Object.lengthKey)).toUInt32.toNat
    if argumentLimit < length then
      raise .rangeError ("too many arguments in function call (only " ++ toString argumentLimit
        ++ " allowed)")
    else
      collect (fun i => getProperty r (.ofIndex i)) (List.range length)
  | _ => raiseTypeError "not a object"

/-- What is left of the length of a function when `count` arguments are bound. -/
def boundLength (count : Nat) : Value → Value
  | .int n => .ofBinary64 (.ofInt (max 0 (n.toInt - count)))
  | .float x =>
    if x.isFinite then .ofBinary64 (.ofIntNearest (max 0 (x.truncate - count)))
    else if x.isNaN || x.isNegative then .int 0
    else .float x
  | _ => .int 0

/-- Binds a function to a receiver and to first arguments. -/
def bindFunction (f receiver : Value) (arguments : List Value) : Eval Value := do
  let r ← requireFunction f
  let length ← match ((← world).heap.object r).own? Object.lengthKey with
    | some _ => boundLength arguments.length <$> getProperty r Object.lengthKey
    | none => pure (.int 0)
  let name := match ← getProperty r Object.nameKey with
    | .text t => t
    | _ => Units.ofString ""
  let heap := (← world).heap
  let c := Callable.bound r receiver arguments
  let kind := match (heap.object r).kind with
    | .constructor _ => ObjectKind.constructor c
    | _ => ObjectKind.function c
  let name : Units := ⟨(Units.ofString "bound ").codes ++ name.codes⟩
  .object <$> alloc
    { label := none
      kind
      properties := [⟨Object.lengthKey, .constant length, false⟩, Object.named name]
      parent := some (heap.ancestor .function) }

/-! ## Errors -/

/-- The text that describes an error object. -/
def describeError (receiver : Value) : Eval Value := do
  let r ← match receiver with
    | .object r => pure r
    | _ => raiseTypeError "not an object"
  let part (name : String) (key : PropertyKey) : Eval Units := do
    match ← getProperty r key with
    | .undefined => pure (Units.ofString name)
    | v => textOf v
  let name ← part "Error" Object.nameKey
  let message ← part "" Object.messageKey
  let mark := if name.codes.isEmpty || message.codes.isEmpty then "" else ": "
  pure (joined [name, Units.ofString mark, message])

def causeKey : PropertyKey := .ofString "cause"

/-- Makes an error of a family with a message, if one is given, and the cause that is named. -/
def makeError (f : Family) (message options : Value) : Eval Value := do
  let messages ← match message with
    | .undefined => pure []
    | v => do pure [⟨Object.messageKey, .data (.text (← textOf v)), false⟩]
  let causes ← match options with
    | .object r => do
      if ((← world).heap.lookup r causeKey).isSome then
        pure [⟨causeKey, .data (← getProperty r causeKey), false⟩]
      else
        pure []
    | _ => pure []
  .object <$> newEngineError f (messages ++ causes)

/-! ## Primitives -/

/-- The primitive of a family that a value is or wraps. -/
def unwrapped (f : Family) (v : Value) : Eval Value := do
  let p ← match v with
    | .object r =>
      match ((← world).heap.object r).kind with
      | .wrapper p => pure p
      | _ => pure .undefined
    | v => pure v
  if p.family? = some f then pure p else raiseTypeError ("not a " ++ f.noun)

/-- The text of a primitive, which shows a symbol by its description. -/
def writtenPrimitive : Value → Eval Units
  | .symbol id => do
    let description := ((← world).heap.description? id).getD (Units.ofString "")
    pure ⟨(Units.ofString "Symbol(").codes ++ description.codes ++ (Units.ofString ")").codes⟩
  | v => primitiveText v

/-- The big integer that a value turns into. -/
def bigIntegerOf (v : Value) : Eval Value := do
  match ← numberPrimitive v with
  | .int n => pure (.bigint n.toInt)
  | .bool b => pure (.bigint (if b then 1 else 0))
  | .bigint n => pure (.bigint n)
  | .float x =>
    match x.toInt? with
    | some n => pure (.bigint n)
    | none =>
      if x.isFinite then raise .rangeError "cannot convert to BigInt: not an integer"
      else raise .rangeError "cannot convert NaN or Infinity to BigInt"
  | .text t =>
    match Value.bigInteger? t with
    | some n => pure (.bigint n)
    | none => raise .syntaxError "invalid BigInt literal"
  | _ => raiseTypeError "cannot convert to BigInt"

/-- The index at which a text is cut for a value. -/
def cut (t : Tokenizer) (v : Value) : Eval Nat := do
  let x ← numberOf v
  pure (t.cut (.float x))

/-- The part of the text of a value from one place up to another. -/
def slice (receiver start stop : Value) : Eval Value := do
  if receiver.isAbsent then
    raiseTypeError "null or undefined are forbidden"
  let text ← textOf receiver
  let t : Tokenizer := { text }
  let first ← cut t start
  let last ← if stop = .undefined then pure text.length else cut t stop
  pure (.text (text.slice first last))

/-! ## Makers -/

/-- Makes an object or a primitive of a family. -/
def make (arguments : List Value) : Family → Eval Value
  | .object =>
    match arguments.headD .undefined with
    | .undefined | .null => do
      let parent := (← world).heap.ancestor .object
      .object <$> alloc { label := none, kind := .plain, properties := [], parent }
    | v => .object <$> toObject v
  | .function => do
    let parent := (← world).heap.ancestor .function
    .object <$> alloc
      { label := none
        kind := .constructor (.builtIn .nothing)
        properties := [Object.parameters 0, Object.named (Units.ofString "anonymous")]
        parent }
  | .text =>
    match arguments with
    | [] => pure (.ofString "")
    | .symbol id :: _ => .text <$> writtenPrimitive (.symbol id)
    | v :: _ => .text <$> textOf v
  | .number =>
    match arguments with
    | [] => pure (.int 0)
    | v :: _ => do
      match ← numericOf v with
      | .bigint n => pure (.float (.ofIntNearest n))
      | n => pure n
  | .boolean => pure (.bool (arguments.headD .undefined).isTruthy)
  | .symbol => do
    match arguments.headD .undefined with
    | .undefined => newSymbol none
    | v => do newSymbol (some (← textOf v))
  | .bigInteger => bigIntegerOf (arguments.headD .undefined)
  | f => makeError f (arguments.getD 0 .undefined) (arguments.getD 1 .undefined)

/-- Runs a function of the engine. -/
def runBuiltIn (receiver : Value) (arguments : List Value) (b : BuiltIn) : Eval Value := do
  let first := arguments.getD 0 .undefined
  let second := arguments.getD 1 .undefined
  match b with
  | .nothing => pure .undefined
  | .refuse => raiseTypeError "invalid property access"
  | .make f => make arguments f
  | .describe => do
    pure (joined [Units.ofString "[object ", ← classOf receiver, Units.ofString "]"])
  | .describeLocally => do apply (← readMember receiver (.ofString "toString")) receiver []
  | .asObject => .object <$> toObject receiver
  | .owns => do
    let key ← keyOf first
    pure (.bool (← ownProperty? receiver key).isSome)
  | .enumerates => do
    let r ← toObject receiver
    let key ← keyOf first
    pure (.bool ((← ownProperty? (.object r) key).any Property.enumerable))
  | .isAncestor =>
    match first with
    | .object r => .bool <$> descends r receiver
    | _ => pure (.bool false)
  | .parent => do
    let r ← toObject receiver
    pure (((← world).heap.object r).parent.elim .null .object)
  | .setParent => do
    assignParent receiver first
    pure .undefined
  | .defineGetter => do
    defineAccessors receiver first second withGetter
    pure .undefined
  | .defineSetter => do
    defineAccessors receiver first second withSetter
    pure .undefined
  | .lookupGetter => do pure (ofFunction? (← accessors receiver first).1)
  | .lookupSetter => do pure (ofFunction? (← accessors receiver first).2)
  | .describeFunction => describeFunction receiver
  | .call => apply receiver first arguments.tail
  | .apply => do
    let _ ← requireFunction receiver
    apply receiver first (← argumentList second)
  | .bind => bindFunction receiver first arguments.tail
  | .describeError => describeError receiver
  | .primitive f => unwrapped f receiver
  | .write f => do pure (.text (← writtenPrimitive (← unwrapped f receiver)))
  | .description => do
    match ← unwrapped .symbol receiver with
    | .symbol id => pure (((← world).heap.description? id).elim .undefined .text)
    | _ => pure .undefined
  | .slice => slice receiver first second

end Eval

end ProxySession
