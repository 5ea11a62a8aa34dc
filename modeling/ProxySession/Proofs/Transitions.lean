import ProxySession.Proofs.Collections
import ProxySession.Proofs.Endings
import ProxySession.Proofs.Move
import ProxySession.Proofs.Regimes

/-!
# Transitions of a session

A session also keeps books on the failures of its host functions: all of them are on record, and some
wait in their context. A `Transition` is a move that leaves the books alone while the heap evolves, the
end of all waiting in a context, or a new failure. None of them leaves a list with its handle.
-/

namespace ProxySession

/-- The failures that wait in a context, and the last tag that was given there. -/
def Context.books (cx : Context) : List HostFailure × Nat := (cx.pending, cx.lastTag)

/-! ## Operations that leave the books alone -/

namespace Holdings

/-- Each context keeps its books, and no list is left with its handle that was not before. -/
structure SameBooks (h h' : Holdings) : Prop where
  books : ∀ c, (h'.context c).books = (h.context c).books
  left : ∀ l, (h'.list l).left = true → (h.list l).left = true

namespace SameBooks

variable {h h' h'' : Holdings}

theorem refl (h : Holdings) : h.SameBooks h := ⟨fun _ => rfl, fun _ => id⟩

theorem trans (h₁ : h.SameBooks h') (h₂ : h'.SameBooks h'') : h.SameBooks h'' :=
  ⟨fun c => (h₂.books c).trans (h₁.books c), fun l hl => h₁.left l (h₂.left l hl)⟩

theorem of_contexts (he : h'.contexts = h.contexts) (hl : h'.lists = h.lists) : h.SameBooks h' where
  books c := by rw [context, context, he]
  left l := by
    rw [list, list, hl]
    exact id

theorem modifyContext (c : ContextId) (h : Holdings) {f : Context → Context}
    (hf : ∀ cx : Context, (f cx).books = cx.books) : h.SameBooks (h.modifyContext c f) :=
  ⟨same_modifyContext Context.books c h hf, fun _ => id⟩

theorem modifyList (l : ListId) (h : Holdings) {f : NodeList → NodeList}
    (hf : ∀ cell : NodeList, (f cell).left = cell.left) : h.SameBooks (h.modifyList l f) where
  books _ := rfl
  left m := by
    rw [list_modifyList]
    split
    · rw [hf]
      exact id
    · exact id

theorem shutContext (c : ContextId) (h : Holdings) : h.SameBooks (h.shutContext c) := by
  rw [Holdings.shutContext]
  split
  · exact refl h
  · exact (of_contexts (shutScanners_contexts _ h) (shutScanners_lists _ h)).trans
      (modifyContext c _ fun _ => rfl)

theorem giveContext (c : ContextId) (h : Holdings) : h.SameBooks (h.giveContext c) := by
  rw [Holdings.giveContext]
  have hm : h.SameBooks (h.modifyContext c fun cx => { cx with references := cx.references - 1 }) :=
    modifyContext c h fun _ => rfl
  split
  · exact hm.trans (shutContext c _)
  · exact hm

theorem releaseList (l : ListId) (h : Holdings) : h.SameBooks (h.releaseList false l) := by
  simp only [Holdings.releaseList, Bool.false_eq_true, if_false]
  split
  · exact refl h
  · split
    · exact modifyContext _ h fun _ => rfl
    · exact refl h

theorem giveBack (r : Reference) (h : Holdings) : h.SameBooks (h.giveBack r) := by
  cases r with
  | list l =>
    have hm : h.SameBooks (h.modifyList l fun cell => { cell with clones := cell.clones - 1 }) :=
      modifyList l h fun _ => rfl
    rw [Holdings.giveBack, giveList]
    split
    · exact hm.trans (releaseList l _)
    · exact hm
  | context c => exact giveContext c h
  | scanner s =>
    rw [Holdings.giveBack, giveScanner]
    split
    · have hshut : h.SameBooks ((h.modifyScanner s fun session =>
          { session with clones := session.clones - 1 }).shutScanner s) := of_contexts rfl rfl
      exact hshut.trans (giveContext _ _)
    · exact of_contexts rfl rfl

end SameBooks

end Holdings

namespace World

/-- A world with given holdings that differs in them and in the records at most. -/
structure Turns (w w' : World) (h : Holdings) : Prop extends Becomes w w' h where
  tacit : w.Tacit w'

theorem take_turns (r : Reference) (w : World) : w.Turns (take r w) (w.toHoldings.take r) :=
  ⟨take_becomes r w, take_tacit r w⟩

theorem closeScanner_turns (s : ScannerId) (w : World) :
    w.Turns (closeScanner s w).2 (w.toHoldings.shutScanner s) :=
  ⟨closeScanner_becomes s w, closeScanner_tacit s w⟩

/-- A world in which no failure waits in a context. -/
def settled (c : ContextId) (w : World) : World :=
  w.updateContext c fun cx => { cx with pending := [] }

/-- Two worlds with the same books, the second with a heap that has evolved. -/
structure Calm (w w' : World) : Prop where
  heap : w.heap.Evolves w'.heap
  failures : w'.hostFailures = w.hostFailures
  books : w.toHoldings.SameBooks w'.toHoldings

theorem Indoors.calm {w w' : World} (hi : w.Indoors w') (hb : w.toHoldings.SameBooks w'.toHoldings) :
    w.Calm w' where
  heap := by
    rw [← hi.rest]
    exact .refl _
  failures := by
    rw [← hi.rest]
  books := hb

/-- Two worlds with the same holdings, failures and numberings, the second with a heap that has
evolved and with what visitors collected meanwhile. -/
structure Rests (w w' : World) : Prop where
  holdings : w'.toHoldings = w.toHoldings
  history : w'.history = w.history
  failures : w'.hostFailures = w.hostFailures
  heap : w.heap.Evolves w'.heap
  warnings : w'.warnings = w.warnings
  numberings : w'.numberings = w.numberings
  record : w.crossings.toList <+: w'.crossings.toList
  collects : w.Collects w'

/-- What has nothing to do with contexts may change. -/
theorem Rests.apart (w : World) (custodians : Array (Custodian ResourceId))
    (resources : Array TrackedResource) (maps : Array (IdentityMap String)) :
    w.Rests { w with custodians, resources, maps } :=
  ⟨rfl, rfl, rfl, .refl _, rfl, rfl, List.prefix_rfl, .of_same rfl rfl rfl⟩

theorem Rests.visit (k : Nat) (arguments : List Value) (w : World) : w.Rests (w.visit k arguments) := by
  have hc := visit_collects k arguments w
  cases arguments <;> exact ⟨rfl, rfl, rfl, .refl _, rfl, rfl, List.prefix_rfl, hc⟩

theorem Indoors.collects {w w' : World} (h : w.Indoors w') : w.Collects w' := by
  rw [← h.rest]
  exact .of_same rfl rfl rfl

theorem Turns.rests {w w' : World} (h : w.Turns w' w.toHoldings) : w.Rests w' where
  holdings := h.holdings
  history := h.history
  failures := by rw [← h.tacit.indoors.rest]
  heap := by
    rw [← h.tacit.indoors.rest]
    exact .refl _
  warnings := h.tacit.warnings
  numberings := by rw [← h.tacit.indoors.rest]
  record := h.tacit.indoors.record
  collects := h.tacit.indoors.collects

theorem Rests.calm {w w' : World} (h : w.Rests w') : w.Calm w' where
  heap := h.heap
  failures := h.failures
  books := .of_contexts (congrArg Holdings.contexts h.holdings) (congrArg Holdings.lists h.holdings)

theorem Aside.rests {w w' : World} (h : w.Aside w') : w.Rests w' where
  holdings := by rw [← h.rest]
  history := by rw [← h.rest]
  failures := by rw [← h.rest]
  heap := h.heap
  warnings := by
    rw [← h.rest]
    rfl
  numberings := by rw [← h.rest]
  record := h.record
  collects := by
    rw [← h.rest]
    exact .of_same rfl rfl rfl

end World

/-! ## Transitions -/

/-- A transition from one world to another. -/
inductive Transition : Multiset Reference × World → Multiset Reference × World → Prop
  | move {F F' w w'} (hm : Move (F, w) (F', w')) (hc : w.Calm w') : Transition (F, w) (F', w')
  | settle {F w} (c : ContextId) : Transition (F, w) (F, w.settled c)
  | fail {F w c} (e : SessionError) (r : ObjectRef) (hc : .context c ∈ F)
    (hr : w.heap.isError (.object r) = true) :
    Transition (F, w) (F, w.recordHostFailure ⟨c, (w.context c).lastTag + 1, e, r⟩)

/-- A run of transitions. -/
abbrev Transitions (F : Multiset Reference) (w : World) (F' : Multiset Reference) (w' : World) : Prop :=
  Relation.ReflTransGen Transition (F, w) (F', w')

theorem Transition.toMove {p q : Multiset Reference × World} (h : Transition p q) : Move p q := by
  cases h with
  | move hm _ => exact hm
  | settle c => exact .change (.pending c (fun _ => []) Context.lastTag) ⟨rfl, rfl⟩
  | @fail F w c e r hc hr =>
    exact .change (.pending c
      (fun cx => cx.pending ++ [⟨c, (w.context c).lastTag + 1, e, r⟩])
      fun _ => (w.context c).lastTag + 1) ⟨rfl, rfl⟩

namespace Transitions

variable {F F' : Multiset Reference} {w w' : World}

theorem moves (h : Transitions F w F' w') : Moves F w F' w' :=
  Relation.ReflTransGen.mono (fun _ _ h => Transition.toMove h) _ _ h

end Transitions

end ProxySession
