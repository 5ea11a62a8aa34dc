import ProxySession.Proofs.Accessors

/-!
# Types and the checker as progress

A query of the checker may resolve in the context that its caller keeps alive. The accessors of
types, symbols and signatures enter that context themselves.
-/

namespace ProxySession

open Effect

variable {kept : List Reference} {α : Type}

/-! ## The checker -/

namespace Checker

variable (q : Checker)

@[grind ←] theorem call_neutral (method : String) (arguments : List Value) {convert : Conversion α}
    (hc : ∀ v, (convert v).Neutral kept) :
    (q.call method arguments convert).Neutral kept := by
  unfold call
  grind

@[grind ←] theorem callNullable_neutral (method : String) (arguments : List Value)
    {convert : Conversion α} (hc : ∀ v, (convert v).Neutral kept) :
    (q.callNullable method arguments convert).Neutral kept := by
  unfold callNullable
  grind

@[grind ←] theorem callOn_neutral {k : ProxyKind} (method : String) (p : Proxy k)
    {convert : Conversion α} (hc : ∀ v, (convert v).Neutral kept) :
    (q.callOn method p convert).Neutral kept := by
  unfold callOn
  grind

@[grind ←] theorem typeAtLocation_neutral (hc : .context q.context ∈ kept) (node : Node) :
    (q.typeAtLocation node).Neutral kept := by
  unfold typeAtLocation
  grind

@[grind ←] theorem symbolAtLocation_neutral (hc : .context q.context ∈ kept) (node : Node) :
    (q.symbolAtLocation node).Neutral kept := by
  unfold symbolAtLocation
  grind

@[grind ←] theorem typeOfSymbol_neutral (hc : .context q.context ∈ kept) (symbol : SymbolProxy) :
    (q.typeOfSymbol symbol).Neutral kept := by
  unfold typeOfSymbol
  grind

@[grind ←] theorem typeOfSymbolAtLocation_neutral (hc : .context q.context ∈ kept) (symbol : SymbolProxy)
    (node : Node) :
    (q.typeOfSymbolAtLocation symbol node).Neutral kept := by
  unfold typeOfSymbolAtLocation
  grind

@[grind ←] theorem declaredTypeOfSymbol_neutral (hc : .context q.context ∈ kept) (symbol : SymbolProxy) :
    (q.declaredTypeOfSymbol symbol).Neutral kept := by
  unfold declaredTypeOfSymbol
  grind

@[grind ←] theorem propertiesOfType_neutral (hc : .context q.context ∈ kept) (type : TypeProxy) :
    (q.propertiesOfType type).Neutral kept := by
  unfold propertiesOfType
  grind

@[grind ←] theorem propertyOfType_neutral (hc : .context q.context ∈ kept)
    (type : TypeProxy) (name : String) :
    (q.propertyOfType type name).Neutral kept := by
  unfold propertyOfType
  grind

@[grind ←] theorem signaturesOfType_neutral (hc : .context q.context ∈ kept) (type : TypeProxy)
    (kind : SignatureKind) :
    (q.signaturesOfType type kind).Neutral kept := by
  unfold signaturesOfType
  grind

@[grind ←] theorem toIndexInfo_neutral {c : ContextId} (hc : .context c ∈ kept) (v : Value) :
    (toIndexInfo c v).Neutral kept := by
  have htype (v : Value) : (c.toProxy .type v).Neutral kept := c.toProxy_neutral hc .type v
  have hnode (v : Value) : (c.toProxy .node v).Neutral kept := c.toProxy_neutral hc .node v
  unfold toIndexInfo
  refine Neutral.bind (Conversion.toObject_foreignActs v).neutral fun r => ?_
  refine Neutral.bind (c.read_neutral htype r _) fun keyType => ?_
  refine Neutral.bind (c.read_neutral htype r _) fun valueType => ?_
  refine Neutral.bind (by grind) fun isReadonly => ?_
  exact Neutral.bind (c.readNullable_neutral hnode r _) fun _ => Neutral.pure _

@[grind ←] theorem indexInfosOfType_neutral (hc : .context q.context ∈ kept) (type : TypeProxy) :
    (q.indexInfosOfType type).Neutral kept := by
  unfold indexInfosOfType
  grind

@[grind ←] theorem returnTypeOfSignature_neutral (hc : .context q.context ∈ kept)
    (signature : SignatureProxy) :
    (q.returnTypeOfSignature signature).Neutral kept := by
  unfold returnTypeOfSignature
  grind

@[grind ←] theorem typeArguments_neutral (hc : .context q.context ∈ kept) (reference : TypeReference) :
    (q.typeArguments reference).Neutral kept := by
  unfold typeArguments
  grind

@[grind ←] theorem baseTypes_neutral (hc : .context q.context ∈ kept) (type : ObjectType) :
    (q.baseTypes type).Neutral kept := by
  unfold baseTypes
  grind

@[grind ←] theorem apparentType_neutral (hc : .context q.context ∈ kept) (type : TypeProxy) :
    (q.apparentType type).Neutral kept := by
  unfold apparentType
  grind

@[grind ←] theorem typeToString_neutral (type : TypeProxy) :
    (q.typeToString type).Neutral kept := by
  unfold typeToString
  grind

@[grind ←] theorem signatureToString_neutral (signature : SignatureProxy) :
    (q.signatureToString signature).Neutral kept := by
  unfold signatureToString
  grind

@[grind ←] theorem fullyQualifiedName_neutral (symbol : SymbolProxy) :
    (q.fullyQualifiedName symbol).Neutral kept := by
  unfold fullyQualifiedName
  grind

end Checker

@[simp, grind =] theorem ContextId.checker_context (c : ContextId) : c.checker.context = c := rfl

/-! ## Types and views -/

namespace TypeProxy

variable (t : TypeProxy)

@[grind ←] theorem flags_nonRetaining :
    (TypeProxy.flags t).NonRetaining := by
  unfold flags
  grind

@[grind ←] theorem symbol_neutral :
    (TypeProxy.symbol t).Neutral kept := by
  unfold symbol
  grind

@[grind ←] theorem aliasSymbol_neutral :
    (TypeProxy.aliasSymbol t).Neutral kept := by
  unfold aliasSymbol
  grind

@[grind ←] theorem aliasTypeArguments_neutral :
    (TypeProxy.aliasTypeArguments t).Neutral kept := by
  unfold aliasTypeArguments
  grind

@[grind ←] theorem typeString_neutral :
    (TypeProxy.typeString t).Neutral kept := by
  unfold typeString
  grind

@[grind ←] theorem objectFlags_nonRetaining :
    (TypeProxy.objectFlags t).NonRetaining := by
  unfold objectFlags
  grind

@[grind ←] theorem hasFlagsOf_nonRetaining (v : TypeView) :
    (hasFlagsOf t v).NonRetaining := by
  unfold hasFlagsOf
  grind

@[grind ←] theorem asView_nonRetaining (v : TypeView) :
    (asView t v).NonRetaining := by
  unfold asView
  grind

@[grind ←] theorem describeFlags_nonRetaining :
    (describeFlags t).NonRetaining := by
  unfold describeFlags
  grind

@[grind ←] theorem describe_nonRetaining (v : TypeView) :
    (describe t v).NonRetaining := by
  unfold describe
  grind

@[grind ←] theorem toView_nonRetaining (v : TypeView) :
    (toView t v).NonRetaining := by
  unfold toView
  grind

end TypeProxy

namespace ObjectType

variable (t : ObjectType)

@[grind ←] theorem properties_neutral :
    (properties t).Neutral kept := by
  unfold properties
  grind

@[grind ←] theorem callSignatures_neutral :
    (callSignatures t).Neutral kept := by
  unfold callSignatures
  grind

@[grind ←] theorem constructSignatures_neutral :
    (constructSignatures t).Neutral kept := by
  unfold constructSignatures
  grind

@[grind ←] theorem indexInfos_neutral :
    (indexInfos t).Neutral kept := by
  unfold indexInfos
  grind

end ObjectType

@[grind ←] theorem View.types_neutral {v : TypeView} (t : View v) :
    (t.types).Neutral kept := by
  unfold View.types
  grind

namespace TypeReference

variable (t : TypeReference)

@[grind ←] theorem target_neutral :
    (target t).Neutral kept := by
  unfold target
  grind

@[grind ←] theorem typeArguments_neutral :
    (typeArguments t).Neutral kept := by
  unfold typeArguments
  grind

end TypeReference

namespace LiteralType

@[grind ←] theorem toLiteral_neutral (c : ContextId) (v : Value) :
    (toLiteral c v).Neutral kept := by
  unfold toLiteral
  grind

@[grind ←] theorem value_neutral (t : LiteralType) :
    (value t).Neutral kept := by
  unfold value
  grind

end LiteralType

/-! ## Symbols and signatures -/

namespace SymbolProxy

variable (s : SymbolProxy)

@[grind ←] theorem name_neutral :
    (SymbolProxy.name s).Neutral kept := by
  unfold name
  grind

@[grind ←] theorem flags_neutral :
    (SymbolProxy.flags s).Neutral kept := by
  unfold flags
  grind

@[grind ←] theorem declarations_neutral :
    (SymbolProxy.declarations s).Neutral kept := by
  unfold declarations
  grind

@[grind ←] theorem valueDeclaration_neutral :
    (SymbolProxy.valueDeclaration s).Neutral kept := by
  unfold valueDeclaration
  grind

@[grind ←] theorem typeOf_neutral :
    (SymbolProxy.typeOf s).Neutral kept := by
  unfold typeOf
  grind

@[grind ←] theorem fullyQualifiedName_neutral :
    (SymbolProxy.fullyQualifiedName s).Neutral kept := by
  unfold fullyQualifiedName
  grind

end SymbolProxy

namespace SignatureProxy

variable (s : SignatureProxy)

@[grind ←] theorem declaration_neutral :
    (SignatureProxy.declaration s).Neutral kept := by
  unfold declaration
  grind

@[grind ←] theorem typeParameters_neutral :
    (SignatureProxy.typeParameters s).Neutral kept := by
  unfold typeParameters
  grind

@[grind ←] theorem parameters_neutral :
    (SignatureProxy.parameters s).Neutral kept := by
  unfold parameters
  grind

@[grind ←] theorem returnType_neutral :
    (SignatureProxy.returnType s).Neutral kept := by
  unfold returnType
  grind

@[grind ←] theorem signatureString_neutral :
    (SignatureProxy.signatureString s).Neutral kept := by
  unfold signatureString
  grind

end SignatureProxy

end ProxySession
