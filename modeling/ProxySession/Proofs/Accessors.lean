import ProxySession.Proofs.Resolutions
import ProxySession.Session.Access.SyntaxTree
import ProxySession.Session.Access.Types

/-!
# Accessors as progress

An accessor enters the context of its proxy, so it may resolve there. It owns nothing at its end,
but for the fields that hold arrays of nodes: their list is owned by the caller.
-/

namespace ProxySession

open Effect

variable {kept : List Reference} {α : Type} {given : α → Multiset Reference}

/-! ## Reading through a handle -/

namespace ProxyCore

variable (g : ProxyCore)

theorem access_gives {work : ObjectRef → Operation α} (name : String)
    (hw : ∀ r, (work r).Gives (.context g.context :: kept) given) :
    (g.access name work).Gives kept given :=
  Gives.located _ (g.context.entering_gives (Gives.bind (g.context.object_nonRetaining g.handle).neutral hw))

theorem read_gives {convert : Conversion α}
    (hc : ∀ v, (convert v).Gives (.context g.context :: kept) given) (name : String) :
    (g.read name convert).Gives kept given :=
  g.access_gives name fun r => Gives.bind (g.context.property_nonRetaining r name).neutral fun v =>
    Conversion.required_gives hc v

theorem readNullable_gives {convert : Conversion α}
    (hc : ∀ v, (convert v).Gives (.context g.context :: kept) given) (name : String) :
    (g.readNullable name convert).Gives kept fun o => o.elim 0 given :=
  g.access_gives name fun r => Gives.bind (g.context.property_nonRetaining r name).neutral fun v =>
    Conversion.nullable_gives hc v

@[grind ←] theorem access_neutral {work : ObjectRef → Operation α} (name : String)
    (hw : ∀ r, (work r).Neutral (.context g.context :: kept)) :
    (g.access name work).Neutral kept := by
  unfold access
  grind

@[grind ←] theorem read_neutral {convert : Conversion α}
    (hc : ∀ v, (convert v).Neutral (.context g.context :: kept)) (name : String) :
    (g.read name convert).Neutral kept := by
  unfold read
  grind

@[grind ←] theorem readNullable_neutral {convert : Conversion α}
    (hc : ∀ v, (convert v).Neutral (.context g.context :: kept)) (name : String) :
    (g.readNullable name convert).Neutral kept := by
  unfold readNullable
  grind

@[grind ←] theorem access_nonRetaining {work : ObjectRef → Operation α} (name : String)
    (hw : ∀ r, (work r).NonRetaining) : (g.access name work).NonRetaining := by
  unfold access
  grind

@[grind ←] theorem read_nonRetaining {convert : Conversion α} (hc : ∀ v, (convert v).NonRetaining)
    (name : String) : (g.read name convert).NonRetaining := by
  unfold read
  grind

@[grind ←] theorem hasMethod_nonRetaining (name : String) : (g.hasMethod name).NonRetaining := by
  unfold hasMethod
  grind

@[grind ←] theorem call_neutral {convert : Conversion α}
    (hc : ∀ v, (convert v).Neutral (.context g.context :: kept)) (method : String) :
    (g.call method convert).Neutral kept := by
  unfold call
  grind

end ProxyCore

@[simp, grind =] theorem Proxy.core_context {k : ProxyKind} (p : Proxy k) : p.core.context = p.context :=
  rfl

@[grind ←] theorem Proxy.foreign_nonRetaining {k : ProxyKind} (p : Proxy k) (c : ContextId) :
    (p.foreign c).NonRetaining := by
  unfold Proxy.foreign
  grind

@[grind ←] theorem ContextId.toProxy_neutral {c : ContextId} (hc : .context c ∈ kept)
    (k : ProxyKind) (v : Value) : (c.toProxy k v).Neutral kept :=
  c.resolve_neutral hc k v

@[grind ←] theorem ContextId.toProxies_neutral {c : ContextId} (hc : .context c ∈ kept)
    (k : ProxyKind) (v : Value) : (c.toProxies k v).Neutral kept := by
  unfold toProxies
  grind

/-! ## Nodes -/

namespace Node

variable (n : Node)

@[grind ←] theorem syntaxKind_nonRetaining :
    (syntaxKind n).NonRetaining := by
  unfold syntaxKind
  grind

@[grind ←] theorem pos_neutral :
    (pos n).Neutral kept := by
  unfold pos
  grind

@[grind ←] theorem stop_neutral :
    (stop n).Neutral kept := by
  unfold stop
  grind

@[grind ←] theorem start_neutral :
    (start n).Neutral kept := by
  unfold start
  grind

@[grind ←] theorem flags_neutral :
    (flags n).Neutral kept := by
  unfold flags
  grind

@[grind ←] theorem getText_neutral :
    (getText n).Neutral kept := by
  unfold getText
  grind

@[grind ←] theorem parent_neutral :
    (parent n).Neutral kept := by
  unfold parent
  grind

@[grind ←] theorem isKind_nonRetaining (name : String) :
    (isKind n name).NonRetaining := by
  unfold isKind
  grind

@[grind ←] theorem child_neutral (field : String) :
    (child n field).Neutral kept := by
  unfold child
  grind

@[grind ←] theorem boolField_neutral (field : String) :
    (boolField n field).Neutral kept := by
  unfold boolField
  grind

@[grind ←] theorem stringField_neutral (field : String) :
    (stringField n field).Neutral kept := by
  unfold stringField
  grind

@[grind ←] theorem optionalStringField_neutral (field : String) :
    (optionalStringField n field).Neutral kept := by
  unfold optionalStringField
  grind

@[grind ←] theorem numberField_neutral (field : String) :
    (numberField n field).Neutral kept := by
  unfold numberField
  grind

theorem childList_gives (field : String) :
    (childList n field).Gives kept fun l => l.elim 0 fun l => {.list l} :=
  n.core.readNullable_gives (Conversion.toNodeList_gives List.mem_cons_self) field

@[grind ←] theorem walker_neutral (c : ContextId) :
    (walker c).Neutral kept := by
  unfold walker
  grind

/-- What the node's walker does with a visitor. -/
def walk (walker : Value) (visitor : ObjectRef) : Operation Value := do
  let object ← n.foreign n.context
  n.context.callFunction walker [object, .object visitor]

theorem walk_nonRetaining (walker : Value) (visitor : ObjectRef) : (walk n walker visitor).NonRetaining :=
  NonRetaining.bind (Proxy.foreign_nonRetaining n _) fun object =>
    n.context.callFunction_nonRetaining walker [object, .object visitor]

/-- The object of the visitor that is made next. -/
def nextVisitor (w : World) : Object where
  label := none
  kind := .function (.host ⟨w.hostFunctions.size⟩)
  properties := [Object.parameters 0]
  parent := w.heap.ancestor .function

def visitorRef (w : World) : ObjectRef := (w.heap.alloc (nextVisitor w)).1

/-- A new collection with its visitor. -/
def openVisitor (w : World) : World :=
  { w with
    collections := w.collections.push []
    hostFunctions := w.hostFunctions.push ⟨n.context, .collect w.collections.size⟩
    heap := (w.heap.alloc (nextVisitor w)).2 }

theorem openVisitor_rests (w : World) : w.Rests (openVisitor n w) :=
  ⟨rfl, rfl, rfl, .alloc w.heap _, rfl, rfl, List.prefix_rfl, .opened rfl rfl rfl rfl⟩

/-- Takes what is in a collection. -/
def taken (k : Nat) : Operation (List Value) := act fun w => (w.collections.getD k [], w.forget k)

/-- Once the walker is there, a visitor is made, the walker runs, and the collection is taken. -/
theorem visited_of_walker {walker : Value} {E : Engine} {w w₁ : World}
    (h : Node.walker n.context E w = (.ok walker, w₁)) : visited n E w =
      (walk n walker (visitorRef w₁) >>= fun _ => taken w₁.collections.size) E (openVisitor n w₁) := by
  rw [visited, bind_eq, h]
  change (n.foreign n.context >>= fun object =>
    n.context.callFunction walker [object, .object (visitorRef w₁)] >>= fun _ =>
      taken w₁.collections.size) E (openVisitor n w₁) = _
  rw [walk, bind_eq, bind_eq, bind_eq]
  rcases n.foreign n.context E (openVisitor n w₁) with ⟨stop | object, w₂⟩ <;> rfl

@[grind ←] theorem visited_neutral : (visited n).Neutral kept := by
  intro E hE F w hF
  have hwalker := walker_neutral n.context E hE F w hF
  rcases hw : Node.walker n.context E w with ⟨stop | walker, w₁⟩ <;> rw [hw] at hwalker
  · rw [visited, bind_eq, hw]
    exact hwalker
  · have hopen : Progress F w₁ F (openVisitor n w₁) := .rests (openVisitor_rests n w₁)
    have hwalk : (walk n walker (visitorRef w₁)).Neutral kept := (walk_nonRetaining n walker _).neutral
    -- The collection is emptied again, but there was none of its number before.
    have hgather := hopen.trans (hwalk E hE F _ hF)
    rw [visited_of_walker n hw, bind_eq]
    rcases hr : walk n walker (visitorRef w₁) E (openVisitor n w₁) with ⟨_ | _, w₂⟩ <;> rw [hr] at hgather
    · exact hwalker.trans hgather
    · exact hwalker.trans (hgather.forget (Nat.le_refl _))

@[grind ←] theorem children_neutral :
    (children n).Neutral kept := by
  unfold children
  grind

@[grind ←] theorem forEachChild_neutral {σ β : Type} (visit : σ → Node → σ × Option β) (s : σ) :
    (forEachChild n visit s).Neutral kept := by
  unfold forEachChild
  grind

@[grind ←] theorem asSourceFile_nonRetaining :
    (asSourceFile n).NonRetaining := by
  unfold asSourceFile
  grind

@[grind ←] theorem sourceFileView_nonRetaining :
    (sourceFileView n).NonRetaining := by
  unfold sourceFileView
  grind

@[grind ←] theorem lastParent_neutral (fuel : Nat) (n : Node) :
    (lastParent fuel n).Neutral kept := by
  induction fuel generalizing n with
  | zero => exact Neutral.exhausted
  | succ fuel ih =>
    unfold lastParent
    grind

@[grind ←] theorem sourceFile_neutral :
    (sourceFile n).Neutral kept := by
  unfold sourceFile
  grind

end Node

namespace SourceFile

variable (f : SourceFile)

@[grind ←] theorem fileName_neutral :
    (f.fileName).Neutral kept := by
  unfold fileName
  grind

@[grind ←] theorem text_neutral :
    (f.text).Neutral kept := by
  unfold text
  grind

@[grind ←] theorem scriptKind_neutral :
    (f.scriptKind).Neutral kept := by
  unfold scriptKind
  grind

@[grind ←] theorem isDeclarationFile_neutral :
    (f.isDeclarationFile).Neutral kept := by
  unfold isDeclarationFile
  grind

theorem statements_gives : f.statements.Gives kept fun l => {.list l} :=
  f.node.core.read_gives (Conversion.toNodeList_gives List.mem_cons_self) "statements"

end SourceFile

/-! ## Node lists -/

namespace NodeList

variable (l : NodeList)

@[grind ←] theorem element_neutral (i : Nat) :
    (l.element? i).Neutral kept := by
  unfold element?
  split
  · exact Neutral.pure none
  · refine Neutral.located _ (l.context.entering_neutral ?_)
    refine Neutral.bind (l.context.value_nonRetaining l.handle).neutral fun v => ?_
    refine Neutral.bind (Conversion.toArray_foreignActs v).neutral fun (r, _) => ?_
    refine Neutral.bind (l.context.element_nonRetaining r i).neutral fun v => ?_
    grind

@[grind ←] theorem iterate_neutral {ε : Type} :
    (l.iterate : Effect ε _).Neutral kept := by
  unfold iterate
  grind

@[grind ←] theorem toList_neutral :
    (l.toList).Neutral kept := by
  unfold toList
  grind

@[grind ←] theorem pos_neutral :
    (l.pos).Neutral kept := by
  unfold pos
  grind

@[grind ←] theorem stop_neutral :
    (l.stop).Neutral kept := by
  unfold stop
  grind

@[grind ←] theorem hasTrailingComma_neutral :
    (l.hasTrailingComma).Neutral kept := by
  unfold hasTrailingComma
  grind

end NodeList

end ProxySession
