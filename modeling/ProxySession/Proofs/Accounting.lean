import ProxySession.Proofs.Moments

/-!
# Handles on account

At each time of a session the handles that an open context retains are its first ones, one for each
entry of its identity maps, one for each list of which a clone is alive, and one for each list that
was left with its handle, as its last clone went while the custodian was busy. Commands leave no list.
A closed context retains nothing.
-/

namespace ProxySession

/-- The number of lists of a context of which a clone is alive. -/
def Holdings.liveLists (c : ContextId) (h : Holdings) : Nat :=
  h.lists.countP fun cell => cell.context = c ∧ cell.clones ≠ 0

/-- The number of lists of a context whose last clone went while the custodian was busy. -/
def Holdings.leftLists (c : ContextId) (h : Holdings) : Nat :=
  h.lists.countP fun cell => cell.context = c ∧ cell.clones = 0 ∧ cell.left = true

/-- The number of handles that a context retains when it opens. -/
def Context.firstHandles (cx : Context) : Nat := 5 + if cx.forEachChild.isSome then 1 else 0

/-- The number of entries in the identity maps of a context. -/
def Context.entryCount (cx : Context) : Nat :=
  cx.nodes.size + cx.types.size + cx.symbols.size + cx.signatures.size

theorem IdentityMap.card_slots (m : IdentityMap HandleId) : m.slots.card = m.size := by
  rw [slots, Multiset.coe_card, List.length_map, size]

namespace Context

theorem card_rootSlots (cx : Context) : cx.rootSlots.card = cx.firstHandles := by
  rw [rootSlots, Multiset.coe_card, List.length_map, rootHandles, firstHandles]
  cases cx.forEachChild <;> rfl

theorem card_cachedSlots (cx : Context) : cx.cachedSlots.card = cx.entryCount := by
  simp only [cachedSlots, Multiset.card_add, IdentityMap.card_slots]
  rfl

/-- What an open context keeps, counted. -/
theorem Keeps.liveHandles_eq {cx : Context} {shares : Multiset (Nat × Value)}
    {ρs : List Resolution} (h : cx.Keeps shares ρs) (hb : cx.custodian.slots.size ≤ 2 ^ 32) :
    cx.custodian.liveHandles = cx.firstHandles + cx.entryCount + shares.card := by
  rw [← Custodian.card_occupied, ← h.balanced hb, Multiset.card_add, Multiset.card_add,
    Multiset.card_map, card_rootSlots, card_cachedSlots]

end Context

namespace Holdings

variable {F : Multiset Reference} {h : Holdings} {c : ContextId}

theorem card_shares (c : ContextId) (h : Holdings) :
    (h.shares c).card = h.liveLists c + h.leftLists c := by
  rw [shares, total, liveLists, leftLists, ← Array.countP_toList, ← Array.countP_toList]
  induction h.lists.toList with
  | nil => rfl
  | cons cell rest ih =>
    rw [List.map_cons, List.sum_cons, Multiset.card_add, ih, List.countP_cons, List.countP_cons,
      NodeList.share]
    by_cases hc : cell.context = c
    · by_cases hl : cell.clones = 0
      · cases cell.left
        · simp [hc, hl]
        · simp [hc, hl]
          omega
      · simp [hc, hl]
        omega
    · simp [hc]

theorem leftLists_of_none (hnone : ∀ l, (h.list l).left = false) : h.leftLists c = 0 := by
  rw [leftLists, Array.countP_eq_zero]
  intro cell hcell
  obtain ⟨i, hi, rfl⟩ := Array.getElem_of_mem hcell
  have hl : h.list ⟨i⟩ = h.lists[i] := by simp [Holdings.list, Array.getD, hi]
  simp [← hl, hnone ⟨i⟩]

/-- The handles of an open context, with those of the lists that were left. -/
theorem liveHandles_eq (hs : Sound F h) (hv : c.index < h.contexts.size)
    (ho : (h.context c).custodian.closed = false)
    (hb : (h.context c).custodian.slots.size ≤ 2 ^ 32) :
    (h.context c).custodian.liveHandles = (h.context c).firstHandles + (h.context c).entryCount +
      (h.liveLists c + h.leftLists c) := by
  rw [← card_shares]
  exact (hs.alive c hv ho).keeps.liveHandles_eq hb

end Holdings

/-- No list was left, now or at a moment on record. -/
def World.NoneLeft (w : World) : Prop := ∀ h ∈ w.toHoldings :: w.history, ∀ l, (h.list l).left = false

/-- Transitions leave no list. -/
theorem Transitions.noneLeft {F F' : Multiset Reference} {w w' : World} (hrun : Transitions F w F' w')
    (hw : w.NoneLeft) : w'.NoneLeft := by
  have hsteps {p : Multiset Reference × World} (hp : Relation.ReflTransGen Transition (F, w) p) :
      p.2.NoneLeft := by
    induction hp with
    | refl => exact hw
    | tail _ htransition ih =>
      obtain ⟨hnow, hpast⟩ := List.forall_mem_cons.1 ih
      cases htransition with
      | move hm hc =>
        have hnow' (l : ListId) : _ = false := Bool.eq_false_iff.2 fun hl =>
          Bool.eq_false_iff.1 (hnow l) (hc.books.left l hl)
        cases hm with
        | still hb => exact List.forall_mem_cons.2 ⟨hnow', hb.history ▸ hpast⟩
        | change _ hb => exact List.forall_mem_cons.2 ⟨hnow', hb.history ▸ hpast⟩
        | mark => exact List.forall_mem_cons.2 ⟨hnow, ih⟩
      | settle c => exact List.forall_mem_cons.2 ⟨hnow, hpast⟩
      | fail e r _ _ => exact List.forall_mem_cons.2 ⟨hnow, hpast⟩
  exact hsteps hrun

namespace Session

variable (fuel : Nat) (heap : Heap) (scripts : List Script) (steps : List Step)

theorem moments_noneLeft (c : ContextId) :
    ∀ h ∈ moments fuel heap scripts steps, h.leftLists c = 0 := by
  have hstart : (World.ofHeap heap).NoneLeft := by
    intro h hh
    rw [List.mem_singleton.1 hh]
    exact fun _ => rfl
  exact fun h hh => Holdings.leftLists_of_none (last_transitions.noneLeft hstart h hh)

/-- What a session over a heap can hold while running operations, the host's among them, own `F`. -/
def ReachedOwning (heap : Heap) (F : Multiset Reference) (h : Holdings) : Prop :=
  ∃ w, Moves 0 (World.ofHeap heap) F w ∧ w.toHoldings = h

namespace ReachedOwning

variable {heap : Heap} {F F' : Multiset Reference} {h h' : Holdings}

theorem change (hr : ReachedOwning heap F h) (hc : Change F h F' h') : ReachedOwning heap F' h' := by
  obtain ⟨w, hm, rfl⟩ := hr
  exact ⟨{ w with toHoldings := h' }, hm.trans (Moves.change hc ⟨rfl, rfl⟩), rfl⟩

/-- A value becomes the next list. -/
theorem convert (hr : ReachedOwning heap F h) (c : ContextId) (v : Value) (length n : Nat)
    (hc : .context c ∈ F) (ho : (h.context c).custodian.closed = false) (hn : h.lists.size = n) :
    ReachedOwning heap (.list ⟨n⟩ ::ₘ F) (h.convert c v length) := by
  subst hn
  exact hr.change (.convert v length hc ho)

/-- A list goes, and clones that its array owns go with it. -/
theorem free {l : ListId} {owned : List ListId}
    (hr : ReachedOwning heap (.list l ::ₘ (owned.map Reference.list + F)) h) (h1 : (h.list l).clones = 1)
    (ho : (h.context (h.list l).context).custodian.closed = false)
    (hc : ∀ m ∈ owned, (h.list m).context = (h.list l).context) :
    ReachedOwning heap F (h.giveListOwning owned l) := by
  obtain ⟨w, hm, rfl⟩ := hr
  have hb := World.dropListOwning_becomes owned l w
  exact ⟨_, hm.trans (Moves.change (.free owned h1 ho hc) hb), hb.holdings⟩

end ReachedOwning

/-- A heap with a parse result whose walker is `null`, and three arrays of nothing. -/
def arraysHeap : Heap :=
  let reference (name : String) (i : Nat) : PropertyDescription :=
    ⟨.ofString name, .value (.object ⟨i⟩), true⟩
  .ofDescriptions
    [⟨"program", .plain, []⟩, ⟨"checker", .plain, []⟩,
      ⟨"createScanner", .function (.value .undefined), []⟩,
      ⟨"getNodeId", .function (.value (.int 7)), []⟩, ⟨"syntaxKinds", .plain, []⟩,
      ⟨"parse", .plain, [reference "program" 0, reference "checker" 1,
        reference "createScanner" 2, reference "getNodeId" 3, reference "syntaxKinds" 4,
        ⟨.ofString "forEachChild", .value .null, true⟩]⟩,
      ⟨"first", .array [] none, []⟩, ⟨"second", .array [] none, []⟩, ⟨"third", .array [] none, []⟩] #[]

/-- What is held after the opening of a context over the arrays. -/
def opened : Holdings :=
  (last 3 arraysHeap [] [.mk (.open (.value (.object ⟨5⟩)) {}) "cx" (some "cx")]).toHoldings

/-- What is held once the host converted the three arrays, too. -/
def converted : Holdings :=
  (((opened.take (.context ⟨0⟩)).convert ⟨0⟩ (.object ⟨6⟩) 0).convert ⟨0⟩ (.object ⟨7⟩) 0).convert
    ⟨0⟩ (.object ⟨8⟩) 0

theorem opened_reached : ReachedOwning arraysHeap 0 opened := ⟨_, last_moves, rfl⟩

theorem converted_reached : ReachedOwning arraysHeap
    (.list ⟨2⟩ ::ₘ .list ⟨1⟩ ::ₘ .list ⟨0⟩ ::ₘ .context ⟨0⟩ ::ₘ 0) converted := by
  have henter := opened_reached.change (.enter (c := ⟨0⟩) (by decide +kernel))
  have hfirst := henter.convert ⟨0⟩ (.object ⟨6⟩) 0 0 (by decide) (by decide +kernel) (by decide +kernel)
  have hsecond := hfirst.convert ⟨0⟩ (.object ⟨7⟩) 0 1 (by decide) (by decide +kernel) (by decide +kernel)
  exact hsecond.convert ⟨0⟩ (.object ⟨8⟩) 0 2 (by decide) (by decide +kernel) (by decide +kernel)

end Session

end ProxySession
