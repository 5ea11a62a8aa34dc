import ProxySession.Session.Item
import ProxySession.Session.Scanning

/-!
# Queries

The answer of each query on each thing that it makes sense for, as an item.
-/

namespace ProxySession

open Effect

namespace Item

/-- Whether two items are the same proxy, view or index signature, or lists of such. -/
def same : Item → Item → Bool
  | @proxy k p, @proxy l q => if h : k = l then decide (h ▸ p = q) else false
  | sourceFile f, sourceFile g => f == g
  | @view v t, @view w u => if h : v = w then decide (h ▸ t = u) else false
  | indexInfo i, indexInfo j => i == j
  | list xs, list ys => sameAll xs ys
  | _, _ => false
where
  sameAll : List Item → List Item → Bool
    | [], [] => true
    | x :: xs, y :: ys => same x y && sameAll xs ys
    | _, _ => false

/-- The number of different items. -/
def distinctCount : List Item → Nat
  | [] => 0
  | x :: rest => if rest.any x.same then distinctCount rest else distinctCount rest + 1

/-- The type that an item stands for. -/
def type? : Item → Option TypeProxy
  | @proxy .type t => some t
  | view t => some t.type
  | _ => none

/-- The node that an item stands for. -/
def node? : Item → Option Node
  | @proxy .node n => some n
  | sourceFile f => some f.node
  | _ => none

def symbol? : Item → Option SymbolProxy
  | @proxy .symbol s => some s
  | _ => none

def signature? : Item → Option SignatureProxy
  | @proxy .signature s => some s
  | _ => none

def flagWord {f : FlagFamily} (a : FlagWord f) : Item := .report (.flagWord a)

end Item

namespace Query

def onNode (n : Node) : Query → Operation Item
  | .id => pure (.int n.key.toInt)
  | .syntaxKind => .syntaxKind <$> Node.syntaxKind n
  | .isKind expected => .bool <$> Node.isKind n expected
  | .pos => do pure (.int (← Node.pos n).toInt)
  | .stop => do pure (.int (← Node.stop n).toInt)
  | .start => do pure (.int (← Node.start n).toInt)
  | .flags => do pure (.int (← Node.flags n).toNat)
  | .getText => .text <$> Node.getText n
  | .parent => .option .proxy <$> Node.parent n
  | .child field => .option .proxy <$> Node.child n field
  | .childList field => .option .nodeList <$> Node.childList n field
  | .boolField field => .bool <$> Node.boolField n field
  | .stringField field => .text <$> Node.stringField n field
  | .optionalStringField field => .option .text <$> Node.optionalStringField n field
  | .numberField field => .number <$> Node.numberField n field
  | .children => .proxies <$> Node.children n
  | .forEachChild breakAt => do
    let visit (seen : List Node) (child : Node) : List Node × Option Node :=
      (seen ++ [child], if breakAt = some (seen.length + 1) then some child else none)
    let (seen, answer) ← Node.forEachChild n visit []
    pure (.list [.proxies seen, .option .proxy answer])
  | .sourceFile => .sourceFile <$> Node.sourceFile n
  | .asSourceFile => .option .sourceFile <$> Node.asSourceFile n
  | .sourceFileView => .sourceFile <$> Node.sourceFileView n
  | _ => senseless

def onSourceFile (f : SourceFile) : Query → Operation Item
  | .node => pure (.proxy f.node)
  | .intoNode => pure (.proxy f.node)
  | .fileName => .text <$> f.fileName
  | .text => .text <$> f.text
  | .scriptKind => .option (fun k => .text k.name) <$> f.scriptKind
  | .isDeclarationFile => .bool <$> f.isDeclarationFile
  | .statements => .nodeList <$> f.statements
  | _ => senseless

def onNodeList (l : NodeList) : Query → Operation Item
  | .size => pure (.int l.length)
  | .isEmpty => pure (.bool (l.length == 0))
  | .element i => .option .proxy <$> l.element? i
  | .iterate => do
    let results ← l.iterate
    pure (.list (results.map fun
      | .ok n => .proxy n
      | .error e => .report (.failure e)))
  | .toList => .proxies <$> l.toList
  | .pos => do pure (.int (← l.pos).toInt)
  | .stop => do pure (.int (← l.stop).toInt)
  | .hasTrailingComma => .bool <$> l.hasTrailingComma
  | _ => senseless

def onType (t : TypeProxy) : Query → Operation Item
  | .id => pure (.int t.key.toInt)
  | .flags => .flagWord <$> TypeProxy.flags t
  | .symbol => .option .proxy <$> TypeProxy.symbol t
  | .aliasSymbol => .option .proxy <$> TypeProxy.aliasSymbol t
  | .aliasTypeArguments => .proxies <$> TypeProxy.aliasTypeArguments t
  | .typeString => .text <$> TypeProxy.typeString t
  | .asView v => .option .view <$> TypeProxy.asView t v
  | .objectType => .view <$> TypeProxy.toView t .object
  | .unionType => .view <$> TypeProxy.toView t .union
  | .typeReference => .view <$> TypeProxy.toView t .reference
  | _ => senseless

def onView {v : TypeView} (t : View v) (q : Query) : Operation Item :=
  match v, q with
  | _, .type => pure (.proxy t.type)
  | .object, .objectFlags => .flagWord <$> TypeProxy.objectFlags t.type
  | .object, .properties => .proxies <$> ObjectType.properties t
  | .object, .callSignatures => .proxies <$> ObjectType.callSignatures t
  | .object, .constructSignatures => .proxies <$> ObjectType.constructSignatures t
  | .object, .indexInfos => do pure (.list ((← ObjectType.indexInfos t).map .indexInfo))
  | .union, .types => .proxies <$> t.types
  | .intersection, .types => .proxies <$> t.types
  | .reference, .objectType => pure (.view (TypeReference.objectType t))
  | .reference, .target => .proxy <$> TypeReference.target t
  | .reference, .typeArguments => .proxies <$> TypeReference.typeArguments t
  | .literal, .value => do pure (.report (.literal (← LiteralType.value t)))
  | _, _ => senseless

def onSymbol (s : SymbolProxy) : Query → Operation Item
  | .id => pure (.int s.key.toInt)
  | .name => .text <$> SymbolProxy.name s
  | .flags => .flagWord <$> SymbolProxy.flags s
  | .declarations => .proxies <$> SymbolProxy.declarations s
  | .valueDeclaration => .option .proxy <$> SymbolProxy.valueDeclaration s
  | .typeOf => .proxy <$> SymbolProxy.typeOf s
  | .fullyQualifiedName => .text <$> SymbolProxy.fullyQualifiedName s
  | _ => senseless

def onSignature (s : SignatureProxy) : Query → Operation Item
  | .id => pure (.int s.key.toInt)
  | .declaration => .option .proxy <$> SignatureProxy.declaration s
  | .typeParameters => .option .proxies <$> SignatureProxy.typeParameters s
  | .parameters => .proxies <$> SignatureProxy.parameters s
  | .returnType => .proxy <$> SignatureProxy.returnType s
  | .signatureString => .text <$> SignatureProxy.signatureString s
  | _ => senseless

def onScanner (s : ScannerId) : Query → Operation Item
  | .reset position => do
    s.reset position
    pure .nothing
  | .scanNext => .syntaxKind <$> s.scanNext
  | .tokenStart => do pure (.int (← s.tokenStart).toNat)
  | .tokenEnd => do pure (.int (← s.tokenEnd).toNat)
  | .tokenText => .text <$> s.tokenText
  | .tokenAt position => do pure (.report (.token (← s.tokenAt position)))
  | .text => do pure (.text ((← world).scanner s).text)
  | .isClosed => do pure (.bool ((← world).scanner s).custodian.closed)
  | .close => do
    s.close
    pure .nothing
  | _ => senseless

def onContext (c : ContextId) : Query → Operation Item
  | .sameContext other => do
    match (← world).lookup other with
    | some (.context d) => pure (.bool (c == d))
    | _ => senseless
  | _ => senseless

/-- The answer of a query on an item. -/
def answer (q : Query) : Item → Operation Item
  | @Item.proxy .node n => onNode n q
  | @Item.proxy .type t => onType t q
  | @Item.proxy .symbol s => onSymbol s q
  | @Item.proxy .signature s => onSignature s q
  | .sourceFile f => onSourceFile f q
  | .view t => onView t q
  | .nodeList l => do onNodeList ((← world).list l) q
  | .scanner s => onScanner s q
  | .context c => onContext c q
  | _ => senseless

end Query

/-- A variable that has to hold something of a kind. -/
def namedItem (name : String) {α : Type} (part : Item → Option α) : Operation α := do
  match ((← world).lookup name).bind part with
  | some a => pure a
  | none => senseless

namespace CheckerQuery

/-- The view of a kind that an item is. -/
def view? (v : TypeView) : Item → Option (View v)
  | @Item.view w t => if h : w = v then some (h ▸ t) else none
  | _ => none

/-- The answer of a query to a checker. -/
def answer (q : Checker) : CheckerQuery → Operation Item
  | .typeAtLocation node => do
    .proxy <$> q.typeAtLocation (← namedItem node Item.node?)
  | .symbolAtLocation node => do
    .option .proxy <$> q.symbolAtLocation (← namedItem node Item.node?)
  | .typeOfSymbol symbol => do
    .proxy <$> q.typeOfSymbol (← namedItem symbol Item.symbol?)
  | .typeOfSymbolAtLocation symbol node => do
    let s ← namedItem symbol Item.symbol?
    .proxy <$> q.typeOfSymbolAtLocation s (← namedItem node Item.node?)
  | .declaredTypeOfSymbol symbol => do
    .proxy <$> q.declaredTypeOfSymbol (← namedItem symbol Item.symbol?)
  | .propertiesOfType type => do
    .proxies <$> q.propertiesOfType (← namedItem type Item.type?)
  | .propertyOfType type name => do
    .option .proxy <$> q.propertyOfType (← namedItem type Item.type?) name
  | .signaturesOfType type kind => do
    .proxies <$> q.signaturesOfType (← namedItem type Item.type?) kind
  | .indexInfosOfType type => do
    pure (.list ((← q.indexInfosOfType (← namedItem type Item.type?)).map .indexInfo))
  | .returnTypeOfSignature signature => do
    .proxy <$> q.returnTypeOfSignature (← namedItem signature Item.signature?)
  | .typeArguments reference => do
    .proxies <$> q.typeArguments (← namedItem reference (view? .reference))
  | .baseTypes objectType => do
    .proxies <$> q.baseTypes (← namedItem objectType (view? .object))
  | .apparentType type => do
    .proxy <$> q.apparentType (← namedItem type Item.type?)
  | .typeToString type => do
    .text <$> q.typeToString (← namedItem type Item.type?)
  | .signatureToString signature => do
    .text <$> q.signatureToString (← namedItem signature Item.signature?)
  | .fullyQualifiedName symbol => do
    .text <$> q.fullyQualifiedName (← namedItem symbol Item.symbol?)

end CheckerQuery

namespace TableQuery

/-- The answer of a query to a table of syntax kinds. -/
def answer (t : KindTable) : TableQuery → Item
  | .size => .int t.size
  | .isEmpty => .bool t.isEmpty
  | .kind n => .option .syntaxKind (t.kind? n)
  | .code name => .option (fun n => .int n.toInt) (t.code? name)
  | .byName name => .option .syntaxKind (t.byName? name)

end TableQuery

end ProxySession
