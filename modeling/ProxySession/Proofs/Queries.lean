import ProxySession.Proofs.Openings
import ProxySession.Session.Query

/-!
# Queries as progress

The answer of a query is owned by the caller: a list if the query converts an array to one, and
nothing otherwise.
-/

namespace ProxySession

open Effect

variable {kept : List Reference} {α : Type}

namespace Item

/-- What the owner of a result owns. -/
def owned (item : Item) : Multiset Reference := item.references

theorem owned_eq_zero {item : Item} (h : item.references = []) : item.owned = 0 := by
  rw [owned, h]
  rfl

/-- A result that keeps nothing alive. -/
def Plain (item : Item) : Prop := item.references = []

@[grind ←] theorem plain_report (r : Shown) : (Item.report r).Plain := by
  simp [Plain, references]

@[grind ←] theorem plain_foreign (v : Value) : (Item.foreign v).Plain := by
  simp [Plain, references]

@[grind ←] theorem plain_proxy {k : ProxyKind} (p : Proxy k) : (Item.proxy p).Plain := by
  simp [Plain, references]

@[grind ←] theorem plain_sourceFile (f : SourceFile) : (Item.sourceFile f).Plain := by
  simp [Plain, references]

@[grind ←] theorem plain_view {v : TypeView} (t : View v) : (Item.view t).Plain := by
  simp [Plain, references]

@[grind ←] theorem plain_indexInfo (i : IndexInfo) : (Item.indexInfo i).Plain := by
  simp [Plain, references]

@[grind ←] theorem plain_table (t : KindTable) : (Item.table t).Plain := by
  simp [Plain, references]

@[grind ←] theorem plain_custodian (i : Nat) : (Item.custodian i).Plain := by
  simp [Plain, references]

@[grind ←] theorem plain_handle (id : HandleId) : (Item.handle id).Plain := by
  simp [Plain, references]

@[grind ←] theorem plain_retained (r : Retained) : (Item.retained r).Plain := by
  simp [Plain, references]

@[grind ←] theorem plain_identityMap (i : Nat) : (Item.identityMap i).Plain := by
  simp [Plain, references]

@[grind ←] theorem plain_list {items : List Item} (h : ∀ item ∈ items, item.Plain) :
    (Item.list items).Plain := by
  rw [Plain, references, allReferences_eq_flatMap]
  simpa [Plain] using h

@[grind ←] theorem plain_indexInfos (is : List IndexInfo) :
    (Item.list (is.map .indexInfo)).Plain :=
  plain_list fun item hi => by
    obtain ⟨i, _, rfl⟩ := List.mem_map.1 hi
    exact plain_indexInfo i

@[grind ←] theorem plain_nothing : nothing.Plain := plain_report _
@[grind ←] theorem plain_bool (b : Bool) : (bool b).Plain := plain_report _
@[grind ←] theorem plain_int (n : Int) : (int n).Plain := plain_report _
@[grind ←] theorem plain_text (s : String) : (text s).Plain := plain_report _
@[grind ←] theorem plain_number (x : Binary64) : (number x).Plain := plain_report _
@[grind ←] theorem plain_syntaxKind (k : SyntaxKind) : (syntaxKind k).Plain := plain_report _
@[grind ←] theorem plain_object (r : ObjectRef) : (object r).Plain := plain_foreign _
@[grind ←] theorem plain_flagWord {f : FlagFamily} (a : FlagWord f) : (flagWord a).Plain :=
  plain_report _

@[grind ←] theorem plain_proxies {k : ProxyKind} (ps : List (Proxy k)) : (proxies ps).Plain :=
  references_proxies ps

@[grind ←] theorem plain_option {f : α → Item} (h : ∀ a, (f a).Plain) (o : Option α) :
    (option f o).Plain := by
  cases o with
  | none => exact plain_nothing
  | some a => exact h a

end Item

/-- An operation whose answer is owned by the caller. -/
def Answers (kept : List Reference) (x : Operation Item) : Prop := x.Gives kept Item.owned

namespace Answers

@[grind ←] theorem plain {item : Item} (h : item.Plain) : Answers kept (pure item) :=
  Gives.pure (Item.owned_eq_zero h)

@[grind ←] theorem map {x : Operation α} {f : α → Item} (hx : x.Neutral kept)
    (hf : ∀ a, (f a).Plain) : Answers kept (f <$> x) :=
  Gives.map hx.gives_nothing fun a =>
    (Item.owned_eq_zero (hf a)).symm

@[grind ←] theorem bind {x : Operation α} {f : α → Operation Item} (hx : x.Neutral kept)
    (hf : ∀ a, Answers kept (f a)) : Answers kept (x >>= f) :=
  Gives.bind hx hf

@[grind ←] theorem senseless : Answers kept Effect.senseless := Gives.senseless

theorem act {g : World → Item × World} (h : ∀ w : World, w.Rests (g w).2)
    (hp : ∀ w, (g w).1.Plain) : Answers kept (Effect.act g) := by
  intro w E _ F _
  have ho : Effect.owned (ε := SessionError) Item.owned (.ok (g w).1) = 0 :=
    Item.owned_eq_zero (hp w)
  rw [zero_add]
  change Progress F w (Effect.owned (ε := SessionError) Item.owned (.ok (g w).1) + F) (g w).2
  rw [ho, zero_add]
  exact .rests (h w)

@[grind ←] theorem fail (e : SessionError) : Answers kept (Effect.fail e) := Gives.fail e

end Answers

namespace Query

@[grind ←] theorem onNode_answers (n : Node) (q : Query) : Answers kept (onNode n q) := by
  cases q with
  | childList field =>
    exact Gives.map (Node.childList_gives n field) fun l => by cases l <;> rfl
  | _ =>
    unfold onNode
    grind

@[grind ←] theorem onSourceFile_answers (f : SourceFile) (q : Query) :
    Answers kept (onSourceFile f q) := by
  cases q with
  | statements => exact Gives.map f.statements_gives fun _ => rfl
  | _ =>
    unfold onSourceFile
    grind

@[grind ←] theorem onNodeList_answers (l : NodeList) (q : Query) :
    Answers kept (onNodeList l q) := by
  cases q with
  | iterate =>
    refine Answers.bind l.iterate_neutral fun results => Answers.plain (Item.plain_list ?_)
    intro item hi
    obtain ⟨r, _, rfl⟩ := List.mem_map.1 hi
    cases r with
    | ok n => exact Item.plain_proxy n
    | error e => exact Item.plain_report _
  | _ =>
    unfold onNodeList
    grind

@[grind ←] theorem onType_answers (t : TypeProxy) (q : Query) : Answers kept (onType t q) := by
  unfold onType
  grind

@[grind ←] theorem onView_answers {v : TypeView} (t : View v) (q : Query) :
    Answers kept (onView t q) := by
  unfold onView
  grind

@[grind ←] theorem onSymbol_answers (s : SymbolProxy) (q : Query) :
    Answers kept (onSymbol s q) := by
  unfold onSymbol
  grind

@[grind ←] theorem onSignature_answers (s : SignatureProxy) (q : Query) :
    Answers kept (onSignature s q) := by
  unfold onSignature
  grind

@[grind ←] theorem onScanner_answers (s : ScannerId) (q : Query) :
    Answers kept (onScanner s q) := by
  unfold onScanner
  grind

@[grind ←] theorem onContext_answers (c : ContextId) (q : Query) :
    Answers kept (onContext c q) := by
  unfold onContext
  grind

theorem answer_answers (q : Query) (item : Item) : Answers kept (q.answer item) := by
  unfold answer
  grind

end Query

@[grind ←] theorem namedItem_neutral (name : String) (part : Item → Option α) :
    (namedItem name part).Neutral kept := by
  unfold namedItem
  grind

theorem CheckerQuery.answer_answers {q : Checker} (hc : .context q.context ∈ kept)
    (query : CheckerQuery) : Answers kept (query.answer q) := by
  unfold answer
  grind

theorem TableQuery.answer_plain (t : KindTable) (q : TableQuery) : (q.answer t).Plain := by
  unfold answer
  grind

end ProxySession
