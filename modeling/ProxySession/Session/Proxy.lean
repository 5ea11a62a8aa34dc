import ProxySession.FlagWord
import ProxySession.Custodian
import ProxySession.KindTable

/-!
# Proxies and views

A proxy stands for a foreign object in one context under an identity key; its handle is the slot
in which the context retains the object. Two proxies are the same when kind, context, key and
handle agree. A view is a proxy known to have a narrower kind.
-/

namespace ProxySession

structure ContextId where
  index : Nat
deriving DecidableEq, Inhabited

structure ListId where
  index : Nat
deriving DecidableEq, Inhabited

structure ScannerId where
  index : Nat
deriving DecidableEq, Inhabited

/-- The kinds of objects that have an identity. -/
inductive ProxyKind where
  | node | type | symbol | signature
deriving DecidableEq, Inhabited

namespace ProxyKind

/-- The name in errors and in the written form of a proxy. -/
def name : ProxyKind → String
  | node => "Node"
  | type => "Type"
  | symbol => "Symbol"
  | signature => "Signature"

/-- The name of the identity map of this kind. -/
def mapName : ProxyKind → String
  | node => "node"
  | type => "type"
  | symbol => "symbol"
  | signature => "signature"

/-- The written form of an identity key of this kind. -/
def keyText (k : ProxyKind) (key : Int64) : String :=
  k.name ++ "Id(" ++ toString key.toInt ++ ")"

end ProxyKind

structure Proxy (k : ProxyKind) where
  context : ContextId
  key : Int64
  handle : HandleId
deriving DecidableEq, Inhabited

abbrev Node := Proxy .node
abbrev TypeProxy := Proxy .type
abbrev SymbolProxy := Proxy .symbol
abbrev SignatureProxy := Proxy .signature

namespace Proxy

def debug {k : ProxyKind} (p : Proxy k) : String :=
  k.name ++ "(" ++ toString p.key.toInt ++ ")"

end Proxy

/-- A node known to be a source file. -/
structure SourceFile where
  node : Node
deriving DecidableEq

namespace SourceFile

def debug (f : SourceFile) : String := "SourceFile(" ++ f.node.debug ++ ")"

end SourceFile

/-- The narrower kinds of types. -/
inductive TypeView where
  | object | union | intersection | literal | reference
deriving DecidableEq

namespace TypeView

def name : TypeView → String
  | object => "ObjectType"
  | union => "UnionType"
  | intersection => "IntersectionType"
  | literal => "LiteralType"
  | reference => "TypeReference"

end TypeView

/-- A type known to be of a narrower kind. -/
structure View (v : TypeView) where
  type : TypeProxy
deriving DecidableEq

abbrev ObjectType := View .object
abbrev UnionType := View .union
abbrev IntersectionType := View .intersection
abbrev LiteralType := View .literal
abbrev TypeReference := View .reference

namespace View

/-- A type reference is written as a view of an object type. -/
def debug {v : TypeView} (t : View v) : String :=
  match v with
  | .reference => "TypeReference(ObjectType(" ++ t.type.debug ++ "))"
  | v => v.name ++ "(" ++ t.type.debug ++ ")"

end View

/-- An index signature of an object type. -/
structure IndexInfo where
  keyType : TypeProxy
  valueType : TypeProxy
  isReadonly : Bool
  declaration : Option Node
deriving DecidableEq

/-- The value that a literal type carries. -/
inductive LiteralValue where
  | text (s : String)
  | number (x : Binary64)
  /-- A sign and a magnitude in base 10. -/
  | bigint (negative : Bool) (base10 : String)

/-- One scanned token. -/
structure Token where
  kind : SyntaxKind
  start : UInt32
  stop : UInt32
  text : String

end ProxySession
