import ProxySession.Session.ForeignCall

/-!
# Conversions of foreign values

A conversion turns a foreign value that is present into a host value. `Conversion.required` and
`Conversion.nullable` say what becomes of an absent value. A conversion keeps nothing of its own in
the context; if it fails half-way, what it made so far is given up again.
-/

namespace ProxySession

open Effect

/-- Turns a foreign value into a host value. -/
abbrev Conversion (α : Type) := Value → Operation α

namespace Value

/-- The 64-bit integer of a value: a number that is one exactly, or a big integer by its low 64
bits. -/
def int64? : Value → Option Int64
  | .bigint n => some (Int64.ofInt n)
  | v =>
    match v.exactInt? with
    | some n => if -0x8000000000000000 ≤ n ∧ n < 0x8000000000000000 then some (Int64.ofInt n) else none
    | none => none

end Value

namespace Conversion

variable {α : Type}

/-- An absent value is missing. -/
def required (convert : Conversion α) : Conversion α := fun v =>
  if v.isAbsent then fail .missingValue else convert v

/-- An absent value converts to nothing. -/
def nullable (convert : Conversion α) : Conversion (Option α) := fun v =>
  if v.isAbsent then pure none else some <$> convert v

/-! ## Base conversions -/

/-- What a partial reading of values gives; a value outside it has the wrong shape. -/
def ofOption (expected : String) (f : Value → Option α) : Conversion α := fun v =>
  match f v with
  | some a => pure a
  | none => Operation.shapeMismatch expected v

def toBool : Conversion Bool := ofOption "boolean" fun
  | .bool b => some b
  | _ => none

def toInt32 : Conversion Int32 := ofOption "32-bit integer" Value.exactInt32?

def toInt64 : Conversion Int64 := ofOption "64-bit integer" Value.int64?

def toNumber : Conversion Binary64 := ofOption "number" Value.number?

/-- The object itself. -/
def toObject : Conversion ObjectRef := Operation.object "object"

/-- A text; one with a stray surrogate is a failure of the engine. -/
def toText (c : ContextId) : Conversion String
  | .text t =>
    match t.decode with
    | .ok s => pure s
    | .error offset => c.engineFailure (.brokenText offset)
  | v => Operation.shapeMismatch "string" v

/-! ## Arrays -/

/-- An array and its length. -/
def toArray : Conversion (ObjectRef × Nat) := fun v => do
  match v, (← world).heap.arrayLength? v with
  | .object r, some length => pure (r, length)
  | v, _ => Operation.shapeMismatch "array" v

/-- The place of an element in error sites. -/
def elementSite (i : Nat) : String := "[" ++ toString i ++ "]"

/-- Converts `count` elements of an array from index `i` on. -/
def elements (c : ContextId) (drop : α → World → World) (convert : Conversion α) (r : ObjectRef) :
    Nat → Nat → Operation (List α)
  | 0, _ => pure []
  | count + 1, i => do
    let a ← Effect.located (elementSite i) do required convert (← c.element r i)
    let rest ← (elements c drop convert r count (i + 1)).onStop (drop a)
    pure (a :: rest)

/-- Converts an array element by element. Each element has to be present. -/
def listOf (c : ContextId) (drop : α → World → World) (convert : Conversion α) :
    Conversion (List α) := fun v => do
  let (r, length) ← toArray v
  elements c drop convert r length 0

/-- Converts an array to host values that keep nothing alive. -/
def plainList (c : ContextId) (convert : Conversion α) : Conversion (List α) :=
  listOf c (fun _ w => w) convert

/-! ## Codes -/

/-- Reads a code through a table. -/
def toCode (table : String) (find : Int32 → Option α) : Conversion α := fun v => do
  let code ← toInt32 v
  match find code with
  | some a => pure a
  | none => fail (.unknownCode table code.toInt)

def toScriptKind : Conversion ScriptKind := toCode "ScriptKind" ScriptKind.ofCode?

def toSignatureKind : Conversion SignatureKind := toCode "SignatureKind" SignatureKind.ofCode?

def toSyntaxKind (c : ContextId) : Conversion SyntaxKind := fun v => do
  toCode "SyntaxKind" ((← world).context c).kinds.kind? v

/-! ## Node lists -/

/-- Retains an array as a node list of its own. -/
def toNodeList (c : ContextId) : Conversion ListId := fun v => do
  let (_, length) ← toArray v
  let handle ← c.retain v
  act fun w =>
    let cell : NodeList := { context := c, handle, length, clones := 1, origin := v }
    (⟨w.lists.size⟩, { w with lists := w.lists.push cell })

end Conversion

namespace ContextId

variable {α : Type}

/-! ## Converted reads and calls -/

/-- Reads a property and converts it; absence is an error. -/
def read (c : ContextId) (r : ObjectRef) (name : String) (convert : Conversion α) : Operation α :=
  Effect.located name do convert.required (← c.property r name)

/-- Reads a property and converts it if it is there. -/
def readNullable (c : ContextId) (r : ObjectRef) (name : String) (convert : Conversion α) :
    Operation (Option α) :=
  Effect.located name do convert.nullable (← c.property r name)

/-- Calls a method and converts the result; absence is an error. -/
def call (c : ContextId) (r : ObjectRef) (method : String) (arguments : List Value)
    (convert : Conversion α) : Operation α :=
  Effect.located method do convert.required (← c.callMethod r method arguments)

/-- Calls a method and converts the result if there is one. -/
def callNullable (c : ContextId) (r : ObjectRef) (method : String) (arguments : List Value)
    (convert : Conversion α) : Operation (Option α) :=
  Effect.located method do convert.nullable (← c.callMethod r method arguments)

end ContextId

end ProxySession
