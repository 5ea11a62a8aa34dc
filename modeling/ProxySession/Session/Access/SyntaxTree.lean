import ProxySession.Session.ProxyCore

/-!
# Nodes, source files and node lists

The accessors of syntax tree nodes. Children are the first arguments that the walker of the context
passes to a visitor; the source file is the node's own answer or the end of its chain of parents.
-/

namespace ProxySession

open Effect

namespace Node

/-- The accessors of a node read through its handle. -/
def syntaxKind (n : Node) : Operation SyntaxKind :=
  n.core.read "kind" (Conversion.toSyntaxKind n.context)

def isKind (n : Node) (name : String) : Operation Bool := do
  pure ((← syntaxKind n).name == name)

/-- The full start, with the blanks before the node. -/
def pos (n : Node) : Operation Int32 := n.core.read "pos" Conversion.toInt32

def stop (n : Node) : Operation Int32 := n.core.read "end" Conversion.toInt32

/-- The start of the first token, or the full start if the node cannot tell. -/
def start (n : Node) : Operation Int32 := do
  if ← n.core.hasMethod "getStart" then n.core.call "getStart" Conversion.toInt32 else pos n

/-- The raw flag bits. -/
def flags (n : Node) : Operation UInt32 := do
  pure (← n.core.read "flags" Conversion.toInt64).toUInt64.toUInt32

/-- The source text of the node, or its text property if it cannot tell. -/
def getText (n : Node) : Operation String := do
  if ← n.core.hasMethod "getText" then n.core.call "getText" (Conversion.toText n.context)
  else n.core.read "text" (Conversion.toText n.context)

def parent (n : Node) : Operation (Option Node) :=
  n.core.readNullable "parent" (n.context.toProxy .node)

/-- A field that holds a single node. -/
def child (n : Node) (field : String) : Operation (Option Node) :=
  n.core.readNullable field (n.context.toProxy .node)

/-- A field that holds an array of nodes. -/
def childList (n : Node) (field : String) : Operation (Option ListId) :=
  n.core.readNullable field (Conversion.toNodeList n.context)

def boolField (n : Node) (field : String) : Operation Bool :=
  n.core.read field Conversion.toBool

def stringField (n : Node) (field : String) : Operation String :=
  n.core.read field (Conversion.toText n.context)

def optionalStringField (n : Node) (field : String) : Operation (Option String) :=
  n.core.readNullable field (Conversion.toText n.context)

def numberField (n : Node) (field : String) : Operation Binary64 :=
  n.core.read field Conversion.toNumber

/-- The function of the context that walks the children of a node. -/
def walker (c : ContextId) : Operation Value := do
  match ((← world).context c).forEachChild with
  | some handle => c.function handle
  | none => fail (.located "forEachChild" .missingValue)

/-- The values that the walker passed to the visitor. -/
def visited (n : Node) : Operation (List Value) := do
  let walk ← walker n.context
  let collection ← act fun w =>
    (w.collections.size, { w with collections := w.collections.push [] })
  let visitor ← n.context.newHostFunction (.collect collection)
  let object ← n.foreign n.context
  let _ ← n.context.callFunction walk [object, .object visitor]
  act fun w => (w.collections.getD collection [],
    { w with collections := w.collections.setIfInBounds collection [] })

/-- The direct children in source order. -/
def children (n : Node) : Operation (List Node) :=
  Effect.located "Node.forEachChild" (n.context.entering do
    collect (n.context.resolve .node) (← visited n))

/-- Visits elements with a state until `visit` breaks, and answers with the last state and what it
broke with. -/
def visitUntilBreak {σ β : Type} (visit : σ → Node → σ × Option β) : σ → List Node → σ × Option β
  | s, [] => (s, none)
  | s, child :: rest =>
    match visit s child with
    | (s, some answer) => (s, some answer)
    | (s, none) => visitUntilBreak visit s rest

/-- Visits the children in order until `visit` breaks. -/
def forEachChild {σ β : Type} (n : Node) (visit : σ → Node → σ × Option β) (s : σ) :
    Operation (σ × Option β) := do
  pure (visitUntilBreak visit s (← children n))

/-! ## Source files -/

/-- The node as a source file, if it is one. -/
def asSourceFile (n : Node) : Operation (Option SourceFile) := do
  if ← isKind n "SourceFile" then pure (some ⟨n⟩) else pure none

/-- The node as a source file; any other kind is an error. -/
def sourceFileView (n : Node) : Operation SourceFile := do
  match ← asSourceFile n with
  | some file => pure file
  | none => fail (.kindMismatch "SourceFile" (← syntaxKind n).name)

/-- The last node on the chain of parents. -/
def lastParent : Nat → Node → Operation Node
  | 0, _ => exhausted
  | fuel + 1, n => do
    match ← parent n with
    | some p => lastParent fuel p
    | none => pure n

/-- The source file that the node belongs to. -/
def sourceFile (n : Node) : Operation SourceFile := do
  let file ←
    if ← n.core.hasMethod "getSourceFile" then
      n.core.call "getSourceFile" (n.context.toProxy .node)
    else
      lastParent (← fuel) n
  sourceFileView file

end Node

namespace SourceFile

def fileName (f : SourceFile) : Operation String :=
  f.node.core.read "fileName" (Conversion.toText f.node.context)

def text (f : SourceFile) : Operation String :=
  f.node.core.read "text" (Conversion.toText f.node.context)

def scriptKind (f : SourceFile) : Operation (Option ScriptKind) :=
  f.node.core.readNullable "scriptKind" Conversion.toScriptKind

def isDeclarationFile (f : SourceFile) : Operation Bool := do
  pure ((← f.node.core.readNullable "isDeclarationFile" Conversion.toBool).getD false)

def statements (f : SourceFile) : Operation ListId :=
  f.node.core.read "statements" (Conversion.toNodeList f.node.context)

end SourceFile

namespace NodeList

def core (l : NodeList) : ProxyCore := ⟨l.context, l.handle, "NodeList"⟩

/-- The element at an index, none past the end. -/
def element? (l : NodeList) (i : Nat) : Operation (Option Node) :=
  if l.length ≤ i then
    pure none
  else
    Effect.located ("NodeList" ++ Conversion.elementSite i) (l.context.entering do
      let (r, _) ← Conversion.toArray (← l.context.value l.handle)
      let node ← (l.context.toProxy .node).required (← l.context.element r i)
      pure (some node))

/-- Every element with its failure, if it has one. -/
def iterate {ε : Type} (l : NodeList) : Effect ε (List (Except SessionError Node)) := do
  let results ← collect (fun i => (l.element? i).attempt) (List.range l.length)
  pure (results.filterMap fun
    | .ok (some n) => some (.ok n)
    | .ok none => none
    | .error e => some (.error e))

/-- The elements, up to the first failure. -/
def toList (l : NodeList) : Operation (List Node) := do
  let found ← collect l.element? (List.range l.length)
  pure (found.filterMap id)

def pos (l : NodeList) : Operation Int32 := l.core.read "pos" Conversion.toInt32

def stop (l : NodeList) : Operation Int32 := l.core.read "end" Conversion.toInt32

def hasTrailingComma (l : NodeList) : Operation Bool := do
  pure ((← l.core.readNullable "hasTrailingComma" Conversion.toBool).getD false)

end NodeList

end ProxySession
