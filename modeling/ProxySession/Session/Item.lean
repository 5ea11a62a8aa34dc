import ProxySession.Session.Access.SyntaxTree
import ProxySession.Session.Access.Types

/-!
# Conversions as data

The meaning of a described conversion: the result is an item that a variable can hold. Lists and
built records hold the items of their parts.
-/

namespace ProxySession

open Effect

namespace Item

def nothing : Item := .report .nothing

def option {α : Type} (f : α → Item) : Option α → Item
  | none => nothing
  | some a => f a

def bool (b : Bool) : Item := .report (.bool b)

def int (n : Int) : Item := .report (.int n)

def text (s : String) : Item := .report (.text s)

def number (x : Binary64) : Item := .report (.number x)

def object (r : ObjectRef) : Item := .foreign (.object r)

def syntaxKind (k : SyntaxKind) : Item := .report (.syntaxKind k)

def proxies {k : ProxyKind} (ps : List (Proxy k)) : Item := .list (ps.map .proxy)

end Item

mutual

/-- Converts a value that is present. -/
def Conv.convert (c : ContextId) : Conv → Conversion Item
  | .text => fun v => .text <$> Conversion.toText c v
  | .bool => fun v => .bool <$> Conversion.toBool v
  | .int32 => fun v => (fun n => .int n.toInt) <$> Conversion.toInt32 v
  | .int64 => fun v => (fun n => .int n.toInt) <$> Conversion.toInt64 v
  | .number => fun v => .number <$> Conversion.toNumber v
  | .object => fun v => .object <$> Conversion.toObject v
  | .nodeList => fun v => .nodeList <$> Conversion.toNodeList c v
  | .syntaxKind => fun v => .syntaxKind <$> Conversion.toSyntaxKind c v
  | .scriptKind => fun v => (fun k => .text k.name) <$> Conversion.toScriptKind v
  | .signatureKind => fun v => (fun k => .text k.name) <$> Conversion.toSignatureKind v
  | .proxy k => fun v => .proxy <$> c.resolve k v
  | .sourceFile => fun v => do .sourceFile <$> Node.sourceFileView (← c.resolve .node v)
  | .view view => fun v => do .view <$> TypeProxy.toView (← c.resolve .type v) view
  | .list of => fun v => .list <$> Conversion.listOf c World.drop (of.convert c) v
  | .build fields => fun v => do .list <$> fields.read c (← Conversion.toObject v)

/-- Reads the fields of an object in order. -/
def ConvFields.read (c : ContextId) (r : ObjectRef) : ConvFields → Operation (List Item)
  | .nil => pure []
  | .field name nullable of rest => do
    let item ←
      if nullable then Item.option id <$> c.readNullable r name (of.convert c)
      else c.read r name (of.convert c)
    let items ← (rest.read c r).onStop (World.drop item)
    pure (item :: items)

end

/-- Converts a value, absent or not. -/
def Conv.apply (c : ContextId) (conv : Conv) : ConvMode → Conversion Item
  | .required => (conv.convert c).required
  | .nullable => fun v => Item.option id <$> (conv.convert c).nullable v
  | .unchecked => conv.convert c

end ProxySession
