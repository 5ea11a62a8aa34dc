import ProxySession.Proofs.Commands
import ProxySession.Proofs.Refusals

/-!
# Queries to a closed context

Every thing belongs to one context. Once that is closed, only what is at hand without the foreign
object is still answered; each other query makes no sense for the thing or is refused.
-/

namespace ProxySession

open Effect SessionError

variable {w : World}

/-- The context that an item belongs to. -/
def Item.home? (h : Holdings) : Item → Option ContextId
  | .proxy p => some p.context
  | .sourceFile f => some f.node.context
  | .view t => some t.type.context
  | .nodeList l => h.lists[l.index]?.map NodeList.context
  | .scanner s => h.scanners[s.index]?.map ScannerSession.context
  | _ => none

theorem Item.list_home {h : Holdings} {l : ListId} {c : ContextId}
    (hl : (Item.nodeList l).home? h = some c) : (h.list l).context = c := by
  obtain ⟨cell, hget, rfl⟩ := Option.map_eq_some_iff.1 hl
  rw [Holdings.list, Array.getD_eq_getD_getElem?, hget]
  rfl

theorem Item.scanner_home {h : Holdings} {s : ScannerId} {c : ContextId}
    (hs : (Item.scanner s).home? h = some c) :
    s.index < h.scanners.size ∧ (h.scanner s).context = c := by
  obtain ⟨session, hget, rfl⟩ := Option.map_eq_some_iff.1 hs
  refine ⟨(Array.getElem?_eq_some_iff.1 hget).1, ?_⟩
  rw [Holdings.scanner, Array.getD_eq_getD_getElem?, hget]
  rfl

namespace Query

/-- Whether the answer of an item to a query is at hand without the foreign object. -/
def isAtHand (h : Holdings) : Query → Item → Bool
  | .id, .proxy _ | .node, .sourceFile _ | .intoNode, .sourceFile _ | .type, .view _
  | .objectType, .view _ | .size, .nodeList _ | .isEmpty, .nodeList _ | .iterate, .nodeList _
  | .text, .scanner _ | .isClosed, .scanner _ => true
  | .element i, .nodeList l => decide ((h.list l).length ≤ i)
  | .toList, .nodeList l => (h.list l).length == 0
  | _, _ => false

/-- Whether the query walks the children of a node. -/
def walks : Query → Bool
  | .children | .forEachChild _ => true
  | _ => false

/-- Whether the query runs methods of a scanner object. -/
def scans : Query → Bool
  | .reset _ | .scanNext | .tokenStart | .tokenEnd | .tokenText | .tokenAt _ => true
  | _ => false

/-- The roots of the failure of a query to something of a closed context: the walker is missed before
the object, if the context is there to say so. -/
def Refusal (q : Query) (cx : Context) (root : SessionError) : Prop :=
  if q.walks ∧ cx.forEachChild = none ∧ cx.references ≠ 0 then root = .missingValue
  else root.IsLapse

/-- What is no answer to a query to something of a closed context: the query makes no sense in any
world, or it is refused. -/
def Barred (q : Query) (cx : Context) (w : World) (x : Operation Item) : Prop :=
  (∀ w', x.Senseless w') ∨ x.Refused (q.Refusal cx) w

/-- The roots of the failure of a query to something that enters a closed context. -/
def Lapse (q : Query) (cx : Context) (root : SessionError) : Prop :=
  if q.walks ∧ cx.forEachChild = none ∧ cx.references ≠ 0 then root = .missingValue
  else cx.Lapse root

/-- What is no answer to a query to something that enters a closed context. -/
def Lapsed (q : Query) (cx : Context) (w : World) (x : Operation Item) : Prop :=
  (∀ w', x.Senseless w') ∨ x.Refused (q.Lapse cx) w

section

variable {q : Query} {cx : Context} {x : Operation Item}

theorem Lapse.refusal {root : SessionError} (h : q.Lapse cx root) : q.Refusal cx root := by
  rw [Lapse] at h
  rw [Refusal]
  split at h
  · next hw => rwa [if_pos hw]
  · next hw =>
    rw [if_neg hw]
    exact h.1

/-- A context that is gone is not there to miss its walker. -/
theorem Lapse.dropped {root : SessionError} (h : q.Lapse cx root) (hr : cx.references = 0) :
    root = .lifetime .contextDropped := by
  rw [Lapse, if_neg fun hw => hw.2.2 hr] at h
  exact h.2 hr

theorem Lapsed.barred (h : q.Lapsed cx w x) : q.Barred cx w x :=
  h.imp_right fun hx => hx.mono fun _ => Lapse.refusal

theorem Barred.lapse (hq : q.walks = false) (h : x.Refused IsLapse w) : q.Barred cx w x := by
  refine .inr (h.mono fun e he => ?_)
  rw [Refusal, if_neg (by simp [hq])]
  exact he

theorem refused_of_lapse (hq : q.walks = false) (h : x.Refused cx.Lapse w) :
    x.Refused (q.Lapse cx) w :=
  h.mono fun e he => by
    rw [Lapse, if_neg (by simp [hq])]
    exact he

theorem Lapsed.lapse (hq : q.walks = false) (h : x.Refused cx.Lapse w) : q.Lapsed cx w x :=
  .inr (refused_of_lapse hq h)

end

/-! ## Nodes -/

section Nodes

variable {n : Node} (hc : (w.context n.context).custodian.closed = true)

include hc

theorem children_refused : (Node.children n).Refused
    (Query.children.Lapse (w.context n.context)) w := by
  have hw := ContextId.hold_closed hc
  refine Refused.located _ (ContextId.entering_refused hc (fun hr => ?_) fun hr => ?_)
  · rw [Lapse, if_neg fun h => h.2.2 hr]
    exact ⟨⟨_, rfl⟩, fun _ => rfl⟩
  · refine Refused.bind (Refused.bind (Refused.ofWorld ?_))
    rw [ContextId.hold_forEachChild]
    cases hf : (w.context n.context).forEachChild with
    | none =>
      refine Refused.fail ?_
      rw [Lapse, if_pos ⟨rfl, hf, hr⟩]
      rfl
    | some walker =>
      obtain ⟨e, he, hx⟩ := ContextId.function_refused hw walker
      refine ⟨e, ?_, hx⟩
      rw [Lapse, if_neg (by simp [hf])]
      exact ⟨he, fun h0 => absurd h0 hr⟩

theorem asSourceFile_refused : (Node.asSourceFile n).Refused (w.context n.context).Lapse w :=
  Refused.bind (Refused.bind (n.core.read_refused hc _))

theorem sourceFileView_refused : (Node.sourceFileView n).Refused (w.context n.context).Lapse w :=
  (asSourceFile_refused hc).bind

theorem onNode_lapsed (q : Query) (hq : q ≠ .id) :
    q.Lapsed (w.context n.context) w (onNode n q) := by
  cases q with
  | id => exact absurd rfl hq
  | syntaxKind => exact .lapse rfl (n.core.read_refused hc _).map
  | isKind name => exact .lapse rfl (Refused.map (Refused.bind (n.core.read_refused hc _)))
  | pos => exact .lapse rfl (Refused.bind (n.core.read_refused hc _))
  | stop => exact .lapse rfl (Refused.bind (n.core.read_refused hc _))
  | start =>
    exact .lapse rfl (Refused.bind (Refused.bind (n.core.hasMethod_refused hc _)))
  | flags => exact .lapse rfl (Refused.bind (Refused.bind (n.core.read_refused hc _)))
  | getText => exact .lapse rfl (Refused.map (Refused.bind (n.core.hasMethod_refused hc _)))
  | parent => exact .lapse rfl (n.core.readNullable_refused hc _).map
  | child field => exact .lapse rfl (n.core.readNullable_refused hc _).map
  | childList field => exact .lapse rfl (n.core.readNullable_refused hc _).map
  | boolField field => exact .lapse rfl (n.core.read_refused hc _).map
  | stringField field => exact .lapse rfl (n.core.read_refused hc _).map
  | optionalStringField field => exact .lapse rfl (n.core.readNullable_refused hc _).map
  | numberField field => exact .lapse rfl (n.core.read_refused hc _).map
  | children => exact .inr (children_refused hc).map
  | forEachChild breakAt => exact .inr (Refused.bind (children_refused hc).bind)
  | sourceFile => exact .lapse rfl (Refused.map (Refused.bind (n.core.hasMethod_refused hc _)))
  | asSourceFile => exact .lapse rfl (asSourceFile_refused hc).map
  | sourceFileView => exact .lapse rfl (sourceFileView_refused hc).map
  | _ => exact .inl fun _ _ => rfl

end Nodes

theorem onSourceFile_lapsed {f : SourceFile}
    (hc : (w.context f.node.context).custodian.closed = true) (q : Query) (hn : q ≠ .node)
    (hi : q ≠ .intoNode) : q.Lapsed (w.context f.node.context) w (onSourceFile f q) := by
  cases q with
  | node => exact absurd rfl hn
  | intoNode => exact absurd rfl hi
  | fileName => exact .lapse rfl (f.node.core.read_refused hc _).map
  | text => exact .lapse rfl (f.node.core.read_refused hc _).map
  | scriptKind => exact .lapse rfl (f.node.core.readNullable_refused hc _).map
  | isDeclarationFile =>
    exact .lapse rfl (Refused.map (Refused.bind (f.node.core.readNullable_refused hc _)))
  | statements => exact .lapse rfl (f.node.core.read_refused hc _).map
  | _ => exact .inl fun _ _ => rfl

/-! ## Node lists -/

section NodeLists

variable {l : NodeList} (hc : (w.context l.context).custodian.closed = true)

include hc

theorem element_refused {i : Nat} (hi : i < l.length) :
    (l.element? i).Refused (w.context l.context).Lapse w := by
  rw [NodeList.element?, if_neg (by omega)]
  exact Refused.located _ (ContextId.entering_lapse hc
    (ContextId.value_refused (ContextId.hold_closed hc) _).bind)

/-- A walk through a list goes on, but each element is refused. -/
theorem iterate_refused : ∃ es : List SessionError, es.length = l.length ∧
    (∀ e ∈ es, (w.context l.context).Lapse e.root) ∧
      ∀ E, (l.iterate : Operation (List (Except SessionError Node))) E w =
        (.ok (es.map .error), w) := by
  obtain ⟨es, hlength, hes, hrun⟩ := collect_refused (δ := SessionError) (List.range l.length)
    fun i hi => element_refused hc (List.mem_range.1 hi)
  refine ⟨es, by rw [hlength, List.length_range], hes, fun E => ?_⟩
  rw [NodeList.iterate, bind_eq, hrun E]
  refine congrArg (fun ns => (Except.ok ns, w)) ?_
  rw [List.filterMap_map]
  exact congrFun List.filterMap_eq_map es

theorem toList_refused (hl : l.length ≠ 0) : l.toList.Refused (w.context l.context).Lapse w := by
  obtain ⟨count, hcount⟩ := Nat.exists_eq_succ_of_ne_zero hl
  have hrange : List.range l.length = 0 :: (List.range count).map Nat.succ := by
    rw [hcount, List.range_succ_eq_map]
  refine Refused.bind ?_
  rw [hrange]
  exact (element_refused hc (Nat.pos_of_ne_zero hl)).bind

theorem onNodeList_lapsed (q : Query) (hsize : q ≠ .size) (hempty : q ≠ .isEmpty)
    (hiterate : q ≠ .iterate) (hi : ∀ i, q = .element i → i < l.length)
    (hl : q = .toList → l.length ≠ 0) :
    (∀ (l : NodeList) w', (onNodeList l q).Senseless w') ∨
      (onNodeList l q).Refused (q.Lapse (w.context l.context)) w := by
  cases q with
  | size => exact absurd rfl hsize
  | isEmpty => exact absurd rfl hempty
  | iterate => exact absurd rfl hiterate
  | element i => exact .inr (refused_of_lapse rfl (element_refused hc (hi i rfl)).map)
  | toList => exact .inr (refused_of_lapse rfl (toList_refused hc (hl rfl)).map)
  | pos => exact .inr (refused_of_lapse rfl (Refused.bind (l.core.read_refused hc _)))
  | stop => exact .inr (refused_of_lapse rfl (Refused.bind (l.core.read_refused hc _)))
  | hasTrailingComma =>
    exact .inr (refused_of_lapse rfl
      (Refused.map (Refused.bind (l.core.readNullable_refused hc _))))
  | _ => exact .inl fun _ _ _ => rfl

end NodeLists

/-! ## Types, symbols and signatures -/

section Types

variable {t : TypeProxy} (hc : (w.context t.context).custodian.closed = true)

include hc

theorem flags_refused : (TypeProxy.flags t).Refused (w.context t.context).Lapse w :=
  Refused.bind (t.core.read_refused hc _)

theorem asView_refused (v : TypeView) :
    (TypeProxy.asView t v).Refused (w.context t.context).Lapse w :=
  Refused.bind (Refused.bind (flags_refused hc))

theorem toView_refused (v : TypeView) :
    (TypeProxy.toView t v).Refused (w.context t.context).Lapse w :=
  (asView_refused hc v).bind

theorem onType_lapsed (q : Query) (hq : q ≠ .id) :
    q.Lapsed (w.context t.context) w (onType t q) := by
  cases q with
  | id => exact absurd rfl hq
  | flags => exact .lapse rfl (flags_refused hc).map
  | symbol => exact .lapse rfl (t.core.readNullable_refused hc _).map
  | aliasSymbol => exact .lapse rfl (t.core.readNullable_refused hc _).map
  | aliasTypeArguments =>
    exact .lapse rfl (Refused.map (Refused.bind (t.core.readNullable_refused hc _)))
  | typeString => exact .lapse rfl (ContextId.ask_refused hc _ t).map
  | asView v => exact .lapse rfl (asView_refused hc v).map
  | objectType => exact .lapse rfl (toView_refused hc .object).map
  | unionType => exact .lapse rfl (toView_refused hc .union).map
  | typeReference => exact .lapse rfl (toView_refused hc .reference).map
  | _ => exact .inl fun _ _ => rfl

theorem onView_lapsed {v : TypeView} (q : Query) (hq : q ≠ .type) (ho : q ≠ .objectType) :
    q.Lapsed (w.context t.context) w (onView (⟨t⟩ : View v) q) := by
  have hsignatures (kind : SignatureKind) :
      (t.context.entering (t.context.checker.signaturesOfType t kind)).Refused
        (w.context t.context).Lapse w :=
    ContextId.entering_lapse hc (t.foreign_refused (ContextId.hold_closed hc)).bind
  cases q with
  | type => exact absurd rfl hq
  | objectType => exact absurd rfl ho
  | objectFlags =>
    cases v with
    | object => exact .lapse rfl (Refused.map (Refused.bind (t.core.read_refused hc _)))
    | _ => exact .inl fun _ _ => rfl
  | properties =>
    cases v with
    | object => exact .lapse rfl (ContextId.ask_refused hc _ t).map
    | _ => exact .inl fun _ _ => rfl
  | callSignatures =>
    cases v with
    | object => exact .lapse rfl (hsignatures .call).map
    | _ => exact .inl fun _ _ => rfl
  | constructSignatures =>
    cases v with
    | object => exact .lapse rfl (hsignatures .construct).map
    | _ => exact .inl fun _ _ => rfl
  | indexInfos =>
    cases v with
    | object => exact .lapse rfl (ContextId.ask_refused hc _ t).bind
    | _ => exact .inl fun _ _ => rfl
  | types =>
    cases v with
    | union | intersection => exact .lapse rfl (t.core.read_refused hc _).map
    | _ => exact .inl fun _ _ => rfl
  | target =>
    cases v with
    | reference => exact .lapse rfl (t.core.read_refused hc _).map
    | _ => exact .inl fun _ _ => rfl
  | typeArguments =>
    cases v with
    | reference => exact .lapse rfl (ContextId.ask_refused hc _ t).map
    | _ => exact .inl fun _ _ => rfl
  | value =>
    cases v with
    | literal => exact .lapse rfl (Refused.bind (t.core.read_refused hc _))
    | _ => exact .inl fun _ _ => rfl
  | _ => exact .inl fun _ _ => by cases v <;> rfl

end Types

theorem onSymbol_lapsed {s : SymbolProxy} (hc : (w.context s.context).custodian.closed = true)
    (q : Query) (hq : q ≠ .id) : q.Lapsed (w.context s.context) w (onSymbol s q) := by
  cases q with
  | id => exact absurd rfl hq
  | name => exact .lapse rfl (Refused.map (Refused.bind (s.core.readNullable_refused hc _)))
  | flags => exact .lapse rfl (Refused.map (Refused.bind (s.core.read_refused hc _)))
  | declarations =>
    exact .lapse rfl (Refused.map (Refused.bind (s.core.readNullable_refused hc _)))
  | valueDeclaration => exact .lapse rfl (s.core.readNullable_refused hc _).map
  | typeOf => exact .lapse rfl (ContextId.ask_refused hc _ s).map
  | fullyQualifiedName => exact .lapse rfl (ContextId.ask_refused hc _ s).map
  | _ => exact .inl fun _ _ => rfl

theorem onSignature_lapsed {s : SignatureProxy}
    (hc : (w.context s.context).custodian.closed = true) (q : Query) (hq : q ≠ .id) :
    q.Lapsed (w.context s.context) w (onSignature s q) := by
  cases q with
  | id => exact absurd rfl hq
  | declaration => exact .lapse rfl (s.core.readNullable_refused hc _).map
  | typeParameters => exact .lapse rfl (s.core.readNullable_refused hc _).map
  | parameters => exact .lapse rfl (s.core.read_refused hc _).map
  | returnType => exact .lapse rfl (ContextId.ask_refused hc _ s).map
  | signatureString => exact .lapse rfl (ContextId.ask_refused hc _ s).map
  | _ => exact .inl fun _ _ => rfl

/-! ## Scanners -/

section Scanners

variable {s : ScannerId} (hs : (w.scanner s).custodian.closed = true)

include hs

theorem scannerObject_refused : s.object.Refused (w.scanner s).Lapse w := by
  refine Refused.ofWorld ?_
  have hget : (w.scanner s).custodian.get (w.scanner s).handle =
      .error (.useAfterClose (w.scanner s).custodian.name) := if_pos hs
  simp only [hget]
  exact Refused.fail rfl

theorem scannerClose_closed (E : Engine) : s.close E w =
    (.error (.failed (.lifetime (.closedTwice (w.scanner s).custodian.name))), w) := by
  simp only [ScannerId.close, bind_eq, act_apply, World.closeScanner_of_closed hs]
  rfl

theorem onScanner_refused {q : Query} (hq : q.scans = true) :
    (onScanner s q).Refused (w.scanner s).Lapse w := by
  have hreset (position : UInt32) : (s.reset position).Refused (w.scanner s).Lapse w :=
    (Refused.located _ (scannerObject_refused hs)).bind
  have hcall {α : Type} (method : String) (convert : ContextId → Conversion α) :
      (s.call method convert).Refused (w.scanner s).Lapse w :=
    Refused.located _ (scannerObject_refused hs).bind
  cases q with
  | reset position => exact (hreset position).bind
  | scanNext => exact (hcall _ _).map
  | tokenStart => exact Refused.bind (hcall _ _).bind
  | tokenEnd => exact Refused.bind (hcall _ _).bind
  | tokenText => exact (hcall _ _).map
  | tokenAt position => exact Refused.bind (hreset position).bind
  | _ => cases hq

theorem onScanner_barred (cx : Context) (q : Query) (ht : q ≠ .text) (hc : q ≠ .isClosed) :
    q.Barred cx w (onScanner s q) := by
  have hscans (hq : q.scans = true) : (onScanner s q).Refused IsLapse w :=
    (onScanner_refused hs hq).mono fun _ => ScannerSession.Lapse.isLapse
  cases q with
  | text => exact absurd rfl ht
  | isClosed => exact absurd rfl hc
  | reset | scanNext | tokenStart | tokenEnd | tokenText | tokenAt => exact .lapse rfl (hscans rfl)
  | close =>
    refine .lapse rfl ⟨.lifetime (.closedTwice (w.scanner s).custodian.name), ⟨_, rfl⟩, fun E => ?_⟩
    rw [onScanner, bind_eq, scannerClose_closed hs]
  | _ => exact .inl fun _ _ => rfl

end Scanners

/-! ## All things -/

/-- Once its context is closed, what enters it answers nothing but what is at hand. -/
theorem answer_lapsed {item : Item} {c : ContextId} (hhome : item.home? w.toHoldings = some c)
    (hc : (w.context c).custodian.closed = true) (hs : ∀ s, item ≠ .scanner s) (q : Query)
    (hq : q.isAtHand w.toHoldings item = false) : q.Lapsed (w.context c) w (q.answer item) := by
  have hne {r : Query} (hr : r.isAtHand w.toHoldings item = true) : q ≠ r := by
    rintro rfl
    rw [hr] at hq
    cases hq
  cases item with
  | @proxy k p =>
    cases hhome
    cases k with
    | node => exact onNode_lapsed hc q (hne rfl)
    | type => exact onType_lapsed hc q (hne rfl)
    | symbol => exact onSymbol_lapsed hc q (hne rfl)
    | signature => exact onSignature_lapsed hc q (hne rfl)
  | sourceFile f =>
    cases hhome
    exact onSourceFile_lapsed hc q (hne rfl) (hne rfl)
  | view t =>
    cases hhome
    exact onView_lapsed hc q (hne rfl) (hne rfl)
  | nodeList l =>
    cases Item.list_home hhome
    have hl := onNodeList_lapsed hc q (hne rfl) (hne rfl) (hne rfl)
      (fun i hi => by subst hi; exact Nat.lt_of_not_le (of_decide_eq_false hq))
      fun hl hz => by subst hl; exact absurd (beq_iff_eq.2 hz) (by simpa [isAtHand] using hq)
    exact hl.imp_left fun hn w' E => hn (w'.list l) w' E
  | scanner s => exact absurd rfl (hs s)
  | _ => cases hhome

/-- Once its context and its session are closed, an item answers nothing but what is at hand. -/
theorem answer_barred {item : Item} {c : ContextId} (hhome : item.home? w.toHoldings = some c)
    (hc : (w.context c).custodian.closed = true)
    (hs : ∀ s, item = .scanner s → (w.scanner s).custodian.closed = true) (q : Query)
    (hq : q.isAtHand w.toHoldings item = false) : q.Barred (w.context c) w (q.answer item) := by
  by_cases hi : ∃ s, item = .scanner s
  · obtain ⟨s, rfl⟩ := hi
    have hne {r : Query} (hr : r.isAtHand w.toHoldings (.scanner s) = true) : q ≠ r := by
      rintro rfl
      rw [hr] at hq
      cases hq
    exact onScanner_barred (hs s rfl) (w.context c) q (hne rfl) (hne rfl)
  · exact (answer_lapsed hhome hc (fun s he => hi ⟨s, he⟩) q hq).barred

/-- Whether a query asks a source file or a view for the proxy that it is made of. -/
def isGetter : Query → Bool
  | .node | .intoNode | .type | .objectType => true
  | _ => false

end Query

/-! ## The checker -/

theorem named_refused {α β : Type} {name : String} {part : Item → Option α}
    {f : α → Operation β} (hf : ∀ a, (f a).Senseless w ∨ (f a).Refused IsLapse w) :
    (namedItem name part >>= f).Senseless w ∨ (namedItem name part >>= f).Refused IsLapse w := by
  cases hpart : (w.lookup name).bind part with
  | none => exact .inl fun E => by rw [namedItem_bind, hpart]
  | some a =>
    have hrun (E : Engine) : (namedItem name part >>= f) E w = f a E w := by
      rw [namedItem_bind, hpart]
    rcases hf a with h | ⟨e, he, h⟩
    · exact .inl fun E => (hrun E).trans (h E)
    · exact .inr ⟨e, he, fun E => (hrun E).trans (h E)⟩

/-- The checker of a closed context answers nothing. -/
theorem CheckerQuery.answer_refused {c : ContextId}
    (hc : (w.context c).custodian.closed = true) (q : CheckerQuery) :
    (q.answer c.checker).Senseless w ∨ (q.answer c.checker).Refused IsLapse w := by
  have hask {k : ProxyKind} {α : Type} (method : String) (p : Proxy k) {convert : Conversion α} :
      (c.checker.callOn method p convert).Refused IsLapse w := Checker.callOn_refused hc method p
  cases q with
  | typeAtLocation node => exact named_refused fun n => .inr (hask _ n).map
  | symbolAtLocation node => exact named_refused fun n => .inr (n.foreign_refused hc).bind.map
  | typeOfSymbol symbol => exact named_refused fun s => .inr (hask _ s).map
  | typeOfSymbolAtLocation symbol node =>
    exact named_refused fun s => named_refused fun _ => .inr (s.foreign_refused hc).bind.map
  | declaredTypeOfSymbol symbol => exact named_refused fun s => .inr (hask _ s).map
  | propertiesOfType type => exact named_refused fun t => .inr (hask _ t).map
  | propertyOfType type name => exact named_refused fun t => .inr (t.foreign_refused hc).bind.map
  | signaturesOfType type kind => exact named_refused fun t => .inr (t.foreign_refused hc).bind.map
  | indexInfosOfType type => exact named_refused fun t => .inr (hask _ t).bind
  | returnTypeOfSignature signature => exact named_refused fun s => .inr (hask _ s).map
  | typeArguments reference => exact named_refused fun t => .inr (hask _ t.type).map
  | baseTypes objectType => exact named_refused fun t => .inr (hask _ t.type).map
  | apparentType type => exact named_refused fun t => .inr (hask _ t).map
  | typeToString type => exact named_refused fun t => .inr (hask _ t).map
  | signatureToString signature => exact named_refused fun s => .inr (hask _ s).map
  | fullyQualifiedName symbol => exact named_refused fun s => .inr (hask _ s).map

end ProxySession
