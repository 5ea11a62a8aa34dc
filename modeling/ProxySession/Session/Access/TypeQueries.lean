import ProxySession.Session.ProxyCore

/-!
# The type checker

Each query is one call of a method of the checker object. The foreign arguments are looked up
before the call; what carries an identity comes back as a proxy.
-/

namespace ProxySession

open Effect

/-- The checker of a context. -/
structure Checker where
  context : ContextId

namespace ContextId

def checker (c : ContextId) : Checker := ⟨c⟩

end ContextId

namespace Checker

variable {α : Type}

/-- Calls a method of the checker and converts the result. -/
def call (q : Checker) (method : String) (arguments : List Value) (convert : Conversion α) :
    Operation α :=
  Effect.located "checker" do
    let r ← q.context.object ((← world).context q.context).checker
    q.context.call r method arguments convert

/-- Calls a method of the checker and converts the result if there is one. -/
def callNullable (q : Checker) (method : String) (arguments : List Value)
    (convert : Conversion α) : Operation (Option α) :=
  Effect.located "checker" do
    let r ← q.context.object ((← world).context q.context).checker
    q.context.callNullable r method arguments convert

/-- A query with one proxy as its argument. -/
def callOn {k : ProxyKind} (q : Checker) (method : String) (p : Proxy k)
    (convert : Conversion α) : Operation α := do
  let v ← p.foreign q.context
  q.call method [v] convert

def typeAtLocation (q : Checker) (node : Node) : Operation TypeProxy :=
  q.callOn "getTypeAtLocation" node (q.context.toProxy .type)

def symbolAtLocation (q : Checker) (node : Node) : Operation (Option SymbolProxy) := do
  let v ← node.foreign q.context
  q.callNullable "getSymbolAtLocation" [v] (q.context.toProxy .symbol)

def typeOfSymbol (q : Checker) (symbol : SymbolProxy) : Operation TypeProxy :=
  q.callOn "getTypeOfSymbol" symbol (q.context.toProxy .type)

def typeOfSymbolAtLocation (q : Checker) (symbol : SymbolProxy) (node : Node) :
    Operation TypeProxy := do
  let s ← symbol.foreign q.context
  let n ← node.foreign q.context
  q.call "getTypeOfSymbolAtLocation" [s, n] (q.context.toProxy .type)

def declaredTypeOfSymbol (q : Checker) (symbol : SymbolProxy) : Operation TypeProxy :=
  q.callOn "getDeclaredTypeOfSymbol" symbol (q.context.toProxy .type)

def propertiesOfType (q : Checker) (type : TypeProxy) : Operation (List SymbolProxy) :=
  q.callOn "getPropertiesOfType" type (q.context.toProxies .symbol)

def propertyOfType (q : Checker) (type : TypeProxy) (name : String) :
    Operation (Option SymbolProxy) := do
  let v ← type.foreign q.context
  q.callNullable "getPropertyOfType" [v, .ofString name] (q.context.toProxy .symbol)

def signaturesOfType (q : Checker) (type : TypeProxy) (kind : SignatureKind) :
    Operation (List SignatureProxy) := do
  let v ← type.foreign q.context
  q.call "getSignaturesOfType" [v, .int kind.code] (q.context.toProxies .signature)

/-- The conversion to an index signature. -/
def toIndexInfo (c : ContextId) : Conversion IndexInfo := fun v => do
  let r ← Conversion.toObject v
  let keyType ← c.read r "keyType" (c.toProxy .type)
  let valueType ← c.read r "type" (c.toProxy .type)
  let isReadonly ← c.readNullable r "isReadonly" Conversion.toBool
  let declaration ← c.readNullable r "declaration" (c.toProxy .node)
  pure { keyType, valueType, isReadonly := isReadonly.getD false, declaration }

def indexInfosOfType (q : Checker) (type : TypeProxy) : Operation (List IndexInfo) :=
  q.callOn "getIndexInfosOfType" type (Conversion.plainList q.context (toIndexInfo q.context))

def returnTypeOfSignature (q : Checker) (signature : SignatureProxy) : Operation TypeProxy :=
  q.callOn "getReturnTypeOfSignature" signature (q.context.toProxy .type)

def typeArguments (q : Checker) (reference : TypeReference) : Operation (List TypeProxy) :=
  q.callOn "getTypeArguments" reference.type (q.context.toProxies .type)

/-- The base types of a class or interface type. -/
def baseTypes (q : Checker) (type : ObjectType) : Operation (List TypeProxy) :=
  q.callOn "getBaseTypes" type.type (q.context.toProxies .type)

def apparentType (q : Checker) (type : TypeProxy) : Operation TypeProxy :=
  q.callOn "getApparentType" type (q.context.toProxy .type)

def typeToString (q : Checker) (type : TypeProxy) : Operation String :=
  q.callOn "typeToString" type (Conversion.toText q.context)

def signatureToString (q : Checker) (signature : SignatureProxy) : Operation String :=
  q.callOn "signatureToString" signature (Conversion.toText q.context)

def fullyQualifiedName (q : Checker) (symbol : SymbolProxy) : Operation String :=
  q.callOn "getFullyQualifiedName" symbol (Conversion.toText q.context)

end Checker

end ProxySession
