import ProxySession.Session.Access.TypeQueries

/-!
# Types, symbols and signatures

The accessors of types and of their narrower views. A view exists exactly when the flags of the
type share a bit with the flags of the view; a type reference is an object type whose object flags
say so. Object flags are read only of object types.
-/

namespace ProxySession

open Effect

namespace TypeProxy

def flags (t : TypeProxy) : Operation (FlagWord typeFlags) := do
  pure (.ofInt64 (← t.core.read "flags" Conversion.toInt64))

def symbol (t : TypeProxy) : Operation (Option SymbolProxy) :=
  t.core.readNullable "symbol" (t.context.toProxy .symbol)

def aliasSymbol (t : TypeProxy) : Operation (Option SymbolProxy) :=
  t.core.readNullable "aliasSymbol" (t.context.toProxy .symbol)

def aliasTypeArguments (t : TypeProxy) : Operation (List TypeProxy) := do
  pure ((← t.core.readNullable "aliasTypeArguments" (t.context.toProxies .type)).getD [])

/-- The type as the checker writes it. -/
def typeString (t : TypeProxy) : Operation String :=
  t.context.entering (t.context.checker.typeToString t)

/-- The object flags, which only object types have. -/
def objectFlags (t : TypeProxy) : Operation (FlagWord objectFlags) := do
  pure (.ofInt64 (← t.core.read "objectFlags" Conversion.toInt64))

end TypeProxy

namespace TypeView

/-- The flags that a type of this view has at least one of. -/
def mask : TypeView → FlagWord typeFlags
  | object | reference => TypeFlags.object
  | union => TypeFlags.union
  | intersection => TypeFlags.intersection
  | literal => TypeFlags.valueLiteral

end TypeView

namespace TypeProxy

/-- Whether the flags of the type select the view. -/
def hasFlagsOf (t : TypeProxy) (v : TypeView) : Operation Bool := do
  pure ((← flags t).intersects v.mask)

/-- The type as a view, if it is of that kind. -/
def asView (t : TypeProxy) (v : TypeView) : Operation (Option (View v)) := do
  if ← hasFlagsOf t v then
    match v with
    | .reference =>
      if (← objectFlags t).contains ObjectFlags.reference then pure (some ⟨t⟩) else pure none
    | _ => pure (some ⟨t⟩)
  else
    pure none

/-- The kind of a type in words, by its flags. -/
def describeFlags (t : TypeProxy) : Operation String := do
  pure ("type " ++ toString t.key.toInt ++ " with flags " ++ (← flags t).debug)

/-- The kind of a type in words, for an error about a view. -/
def describe (t : TypeProxy) (v : TypeView) : Operation String := do
  match v with
  | .reference =>
    if ← hasFlagsOf t .object then
      pure ("object type " ++ toString t.key.toInt ++ " with object flags "
        ++ (← objectFlags t).debug)
    else
      describeFlags t
  | _ => describeFlags t

/-- The type as a view; any other type is an error. -/
def toView (t : TypeProxy) (v : TypeView) : Operation (View v) := do
  match ← asView t v with
  | some view => pure view
  | none => fail (.kindMismatch v.name (← describe t v))

end TypeProxy

namespace ObjectType

def properties (t : ObjectType) : Operation (List SymbolProxy) :=
  t.type.context.entering (t.type.context.checker.propertiesOfType t.type)

def callSignatures (t : ObjectType) : Operation (List SignatureProxy) :=
  t.type.context.entering (t.type.context.checker.signaturesOfType t.type .call)

def constructSignatures (t : ObjectType) : Operation (List SignatureProxy) :=
  t.type.context.entering (t.type.context.checker.signaturesOfType t.type .construct)

def indexInfos (t : ObjectType) : Operation (List IndexInfo) :=
  t.type.context.entering (t.type.context.checker.indexInfosOfType t.type)

end ObjectType

namespace View

/-- The constituents of a union or an intersection. -/
def types {v : TypeView} (t : View v) : Operation (List TypeProxy) :=
  t.type.core.read "types" (t.type.context.toProxies .type)

end View

namespace TypeReference

/-- A type reference is an object type. -/
def objectType (t : TypeReference) : ObjectType := ⟨t.type⟩

/-- The generic declaration that the reference instantiates. -/
def target (t : TypeReference) : Operation TypeProxy :=
  t.type.core.read "target" (t.type.context.toProxy .type)

def typeArguments (t : TypeReference) : Operation (List TypeProxy) :=
  t.type.context.entering (t.type.context.checker.typeArguments t)

end TypeReference

namespace LiteralType

/-- The conversion to the value of a literal. -/
def toLiteral (c : ContextId) : Conversion LiteralValue
  | .text t => .text <$> Conversion.toText c (.text t)
  | .object r => do
    let negative ← c.read r "negative" Conversion.toBool
    let base10 ← c.read r "base10Value" (Conversion.toText c)
    pure (.bigint negative base10)
  | v =>
    match v.number? with
    | some x => pure (.number x)
    | none => Operation.shapeMismatch "string, number or pseudo-bigint" v

def value (t : LiteralType) : Operation LiteralValue :=
  t.type.core.read "value" (toLiteral t.type.context)

end LiteralType

namespace SymbolProxy

/-- The name, or the escaped name of a symbol without one. -/
def name (s : SymbolProxy) : Operation String := do
  match ← s.core.readNullable "name" (Conversion.toText s.context) with
  | some name => pure name
  | none => s.core.read "escapedName" (Conversion.toText s.context)

def flags (s : SymbolProxy) : Operation (FlagWord symbolFlags) := do
  pure (.ofInt64 (← s.core.read "flags" Conversion.toInt64))

/-- The declarations in order; a symbol may have none. -/
def declarations (s : SymbolProxy) : Operation (List Node) := do
  pure ((← s.core.readNullable "declarations" (s.context.toProxies .node)).getD [])

def valueDeclaration (s : SymbolProxy) : Operation (Option Node) :=
  s.core.readNullable "valueDeclaration" (s.context.toProxy .node)

def typeOf (s : SymbolProxy) : Operation TypeProxy :=
  s.context.entering (s.context.checker.typeOfSymbol s)

def fullyQualifiedName (s : SymbolProxy) : Operation String :=
  s.context.entering (s.context.checker.fullyQualifiedName s)

end SymbolProxy

namespace SignatureProxy

def declaration (s : SignatureProxy) : Operation (Option Node) :=
  s.core.readNullable "declaration" (s.context.toProxy .node)

/-- The type parameters; none if the signature is not generic. -/
def typeParameters (s : SignatureProxy) : Operation (Option (List TypeProxy)) :=
  s.core.readNullable "typeParameters" (s.context.toProxies .type)

def parameters (s : SignatureProxy) : Operation (List SymbolProxy) :=
  s.core.read "parameters" (s.context.toProxies .symbol)

def returnType (s : SignatureProxy) : Operation TypeProxy :=
  s.context.entering (s.context.checker.returnTypeOfSignature s)

def signatureString (s : SignatureProxy) : Operation String :=
  s.context.entering (s.context.checker.signatureToString s)

end SignatureProxy

end ProxySession
