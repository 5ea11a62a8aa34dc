import ProxySession.Proofs.GoodHandles
import ProxySession.Proofs.ElementLookups

/-!
# Lazy lists

A node list converts an element when it is asked for it, through its handle, and the conversion to a list of
proxies converts all of them at once. Both take note of what is found by looking at the elements, so they
agree as long as foreign code does not call back.
-/

namespace ProxySession

open Effect

variable {c : ContextId} {r : ObjectRef} {f : Value} {n room length i : Nat} {w w' w₀ w₁ w₂ v₁ : World}
  {k : ProxyKind} {ss : List Sighting} {l : NodeList} {E : Engine}

/-! ## Retaining an array -/

namespace Context

variable {cx : Context}

/-- The context after a value was retained. -/
def retaining (cx : Context) (v : Value) : Context :=
  { cx with custodian := { cx.custodian with slots := cx.custodian.slots.push (some v) } }

theorem retaining_identities (cx : Context) (v : Value) (k : ProxyKind) :
    (cx.retaining v).identities k = cx.identities k := by
  cases k <;> rfl

theorem retaining_slot {i : Nat} {x : Value} (h : cx.custodian.slots[i]? = some (some x)) (v : Value) :
    (cx.retaining v).custodian.slots[i]? = some (some x) := by
  obtain ⟨hi, _⟩ := Array.getElem?_eq_some_iff.1 h
  rw [← h]
  exact (Array.getElem?_push_lt hi).trans (Array.getElem?_eq_getElem hi).symm

theorem Ready.retaining (h : cx.Ready) (v : Value) : (cx.retaining v).Ready := ⟨h.isOpen, h.alive⟩

theorem Holds.retaining (h : cx.Holds) (v : Value) : (cx.retaining v).Holds := by
  intro k key handle hget
  rw [retaining_identities] at hget
  obtain ⟨x, hslot⟩ := h k key handle hget
  exact ⟨x, retaining_slot hslot v⟩

theorem cached_retaining (ho : cx.custodian.closed = false) (h : cx.Holds) (v : Value) (k : ProxyKind)
    (key : Int64) : (cx.retaining v).cached k key = cx.cached k key := by
  cases hget : (cx.identities k).get? key with
  | none => rw [cached, cached, retaining_identities, hget]; rfl
  | some handle =>
    obtain ⟨x, hslot⟩ := h k key handle hget
    have hget' : ((cx.retaining v).identities k).get? key = some handle := by
      rw [retaining_identities, hget]
    have ho' : (cx.retaining v).custodian.closed = false := ho
    rw [cached_of_some ho hget hslot, cached_of_some ho' hget' (retaining_slot hslot v)]

end Context

/-- Each entry of an open context names a slot that holds something. -/
theorem Holdings.Sound.holds {F : Multiset Reference} {h : Holdings} (hs : h.Sound F)
    (hv : c.index < h.contexts.size) (ho : (h.context c).custodian.closed = false)
    (hb : (h.context c).custodian.slots.size ≤ 2 ^ 32) : (h.context c).Holds := by
  intro k key handle hget
  have hkeeps := (hs.alive c hv ho).keeps
  rw [hkeeps.entries k key] at hget
  obtain ⟨ρ, hρ, rfl⟩ := Option.map_eq_some_iff.1 hget
  exact ⟨_, hkeeps.objects hb k key ρ hρ⟩

/-- An open context numbers nodes with a function that it retained when it opened. -/
theorem Holdings.Sound.numbersBy {F : Multiset Reference} (hs : w.Sound F)
    (hv : c.index < w.contexts.size) (ho : (w.context c).custodian.closed = false)
    (hb : (w.context c).custodian.slots.size ≤ 2 ^ 32) : ∃ f, c.NumbersBy f w := by
  have hroot : (w.context c).nodeId ∈ (w.context c).rootHandles := by simp [Context.rootHandles]
  obtain ⟨f, hf⟩ := Holdings.get_root hs hv ho hb hroot
  exact ⟨f, ⟨ho, hs.referenced c hv ho⟩, hf⟩

/-! ## Taking note while a context is held -/

namespace ContextId

theorem Took.get {id : HandleId} {v : Value} (ht : c.Took k w ss w') (hr : (w.context c).Ready)
    (hslot : (w.context c).custodian.slots[id.index.toNat]? = some (some v)) :
    (w'.context c).custodian.get id = .ok v := by
  obtain ⟨failures, tag, hcontext⟩ := ht
  rw [hcontext]
  exact Custodian.get_of_holds (hr.seesAll k ss).isOpen (Context.seesAll_slot hslot k ss)

theorem Took.references (ht : c.Took k w ss w') :
    (w'.context c).references = (w.context c).references := by
  obtain ⟨failures, tag, hcontext⟩ := ht
  rw [hcontext]
  exact Context.seesAll_references k (w.context c) ss

theorem Took.hold (ht : c.Took k w ss w') (h : (w.context c).references ≠ 0) :
    c.Took k (World.holdContext c w) ss (World.holdContext c w') := by
  have hreferences := ht.references
  obtain ⟨failures, tag, hcontext⟩ := ht
  refine ⟨failures, tag, ?_⟩
  rw [World.holdContext_context (by rwa [hreferences]), World.holdContext_context h, hreferences, hcontext]
  exact congrArg (Context.booked · failures tag)
    (Context.seesAll_counted k (w.context c) ss ((w.context c).references + 1)).symm

theorem Took.shared (h : (w.context c).references ≠ 0)
    (ht : c.Took k (World.holdContext c w) ss w') : 1 < (w'.context c).references := by
  rw [ht.references, World.holdContext_context h]
  dsimp only
  omega

theorem Took.drop (h : (w.context c).references ≠ 0)
    (ht : c.Took k (World.holdContext c w) ss w') : c.Took k w ss (World.dropContext c w') := by
  have hshared := ht.shared h
  have hreferences := ht.references
  obtain ⟨failures, tag, hcontext⟩ := ht
  have hcounted : (World.holdContext c w).context c =
      (w.context c).counted ((w.context c).references + 1) := World.holdContext_context h
  rw [hcounted] at hcontext hreferences
  refine ⟨failures, tag, ?_⟩
  rw [World.dropContext_of_shared hshared, World.lowered_context (by omega), hreferences, hcontext,
    Context.seesAll_counted]
  have hsame : (w.context c).references = ((w.context c).seesAll k ss).references :=
    (Context.seesAll_references k (w.context c) ss).symm
  exact congrArg (Context.booked · failures tag)
    (congrArg (Context.counted ((w.context c).seesAll k ss)) hsame)

theorem NumbersBy.hold (hf : c.NumbersBy f w) : c.NumbersBy f (World.holdContext c w) := by
  have hcontext := World.holdContext_context hf.ready.alive
  constructor
  · rw [hcontext]
    exact ⟨hf.ready.isOpen, Nat.succ_ne_zero _⟩
  · rw [hcontext]
    exact hf.node

end ContextId

/-! ## Lists over arrays -/

namespace NodeList

/-- A list that was made of an array, which the context retains for it. -/
structure Wraps (c : ContextId) (r : ObjectRef) (length : Nat) (w : World) (l : NodeList) (w₀ : World) :
    Prop where
  context : l.context = c
  handle : l.handle = ⟨UInt32.ofNat (w.context c).custodian.slots.size⟩
  length : l.length = length
  retained : w₀.context c = (w.context c).retaining (.object r)
  outlook : w₀.outlook = w.outlook

theorem toNodeList_wraps (hr : (w.context c).Ready)
    (hlength : w.heap.arrayLength? (.object r) = some length) (E : Engine) :
    ∃ w₀, Conversion.toNodeList c (.object r) E w = (.ok ⟨w.lists.size⟩, w₀) ∧
      Wraps c r length w (w₀.list ⟨w.lists.size⟩) w₀ := by
  obtain ⟨w₁, hrun, hw⟩ := ContextId.retain_of_open (.object r) E hr.isOpen
  have hunseen := ContextId.retain_unseen (c := c) (.object r) E w
  rw [hrun] at hunseen
  have hlists : w₁.lists = w.lists := (congrArg Holdings.lists hw.holdings).trans rfl
  have hcontext : w₁.context c = (w.context c).retaining (.object r) := by
    rw [hw.holdings, Holdings.retain, Holdings.context_modifyContext,
      if_pos ⟨rfl, Holdings.Made.valid_of_ready hr⟩]
    rfl
  let cell : NodeList :=
    { context := c, handle := w.nextHandle c, length, clones := 1, origin := .object r }
  have hlist : ({ w₁ with lists := w₁.lists.push cell } : World).list ⟨w.lists.size⟩ = cell := by
    rw [← hlists]
    simp [Holdings.list]
  refine ⟨{ w₁ with lists := w₁.lists.push cell }, ?_, ?_⟩
  · rw [← hlists]
    exact (bind_of_ok (Conversion.toArray_of_array hlength)).trans (bind_of_ok hrun)
  · rw [hlist]
    exact ⟨rfl, rfl, rfl, hcontext, hunseen⟩

/-- Past the end there is nothing. -/
theorem element?_past (hi : l.length ≤ i) (E : Engine) (w : World) : l.element? i E w = (.ok none, w) := by
  rw [element?, if_pos hi]
  rfl

/-- An access enters the context and looks up what its array has at the index. -/
theorem element?_run {m : Nat} (hc : l.context = c) (hi : i < l.length)
    (hr : (w.context c).references ≠ 0) (hget : (w.context c).custodian.get l.handle = .ok (.object r))
    (harray : w.heap.arrayLength? (.object r) = some m) (E : Engine) :
    l.element? i E w =
      (((c.lookUp .node r i E (World.holdContext c w)).1.map some).mapError
        (Stop.map (.located ("NodeList" ++ Conversion.elementSite i))),
      World.dropContext c (c.lookUp .node r i E (World.holdContext c w)).2) := by
  subst hc
  have hvalue : l.context.value l.handle E (World.holdContext l.context w) =
      (.ok (.object r), World.holdContext l.context w) := by
    rw [ContextId.value, world_bind, World.holdContext_context hr, hget]
    rfl
  have harray' : (World.holdContext l.context w).heap.arrayLength? (.object r) = some m := harray
  have hlookUp : (l.context.element r i >>= fun v => (l.context.toProxy .node).required v >>= fun node =>
      pure (some node) : Operation (Option Node)) = some <$> l.context.lookUp .node r i := by
    rw [← ContextId.element_required]
    exact (bind_assoc _ _ _).symm
  have henter (x : Operation (Option Node)) (hx : x E (World.holdContext l.context w) =
      ((some <$> l.context.lookUp .node r i : Operation (Option Node)) E (World.holdContext l.context w))) :
      (l.context.entering x).located ("NodeList" ++ Conversion.elementSite i) E w =
        (((l.context.lookUp .node r i E (World.holdContext l.context w)).1.map some).mapError
          (Stop.map (.located ("NodeList" ++ Conversion.elementSite i))),
        World.dropContext l.context (l.context.lookUp .node r i E (World.holdContext l.context w)).2) := by
    rw [located_eq, ContextId.entering_live _ hr, hx, map_eq]
  rw [element?, if_neg (by omega)]
  refine henter _ ((bind_of_ok hvalue).trans ((bind_of_ok (Conversion.toArray_of_array harray')).trans ?_))
  rw [← hlookUp]

namespace Wraps

theorem numbersBy (hl : l.Wraps c r length w w₀) (hf : c.NumbersBy f w) : c.NumbersBy f w₀ := by
  obtain ⟨ho, hslot⟩ := Custodian.get_ok hf.node
  have hcontext := hl.retained
  constructor
  · rw [hcontext]
    exact hf.ready.retaining _
  · rw [hcontext]
    exact Custodian.get_of_holds ho (Context.retaining_slot hslot _)

theorem slot (hl : l.Wraps c r length w w₀) (hsize : (w.context c).custodian.slots.size < 2 ^ 32) :
    (w₀.context c).custodian.slots[l.handle.index.toNat]? = some (some (.object r)) := by
  have hnat : (UInt32.ofNat (w.context c).custodian.slots.size).toNat =
      (w.context c).custodian.slots.size :=
    UInt32.toNat_ofNat_of_lt' (by rw [UInt32.size]; omega)
  rw [hl.retained, hl.handle, hnat]
  exact Array.getElem?_push_size

/-- An access takes note of the node that it finds. The context is held meanwhile, which changes nothing
of what is found. -/
theorem registers (hl : l.Wraps c r length w w₀) (hf : c.NumbersBy f w)
    (hsize : (w.context c).custodian.slots.size < 2 ^ 32) (n room : Nat) :
    c.Registers r length (Engine.ofFuel n room) w₀ some (fun i => "NodeList" ++ Conversion.elementSite i)
      l.element? where
  registered i hi ss v htook harray he := by
    have hf₀ := hl.numbersBy hf
    have hnow := htook.numbersBy hf₀
    have hgiven : (World.holdContext c w₀).context c =
        (w₀.context c).counted ((w₀.context c).references + 1) :=
      World.holdContext_context hf₀.ready.alive
    have ho := World.outlook_holdContext hnow.ready.alive
    obtain ⟨hresult, hsame⟩ := hnow.sight_again hnow.hold ho i he
    have hlook := (ContextId.lookUp_outlook i (Engine.ofFuel n room) (World.holdContext c v)).trans hsame
    have hcalls : (c.lookUp .node r i (Engine.ofFuel n room) (World.holdContext c v)).2.hostCalls =
        (World.holdContext c v).hostCalls := by
      rw [World.hostCalls, World.tally_of_outlook hlook, World.hostCalls, World.tally_of_outlook ho]
      exact he
    obtain ⟨m, hm⟩ := harray
    have hrun := element?_run hl.context (hi.trans_eq hl.length.symm) hnow.ready.alive
      (htook.get hf₀.ready (hl.slot hsize)) hm (Engine.ofFuel n room)
    have hcases := ContextId.lookUp_cases (Engine.ofFuel_keepsUnless c n room) hf₀.hold.ready
      (htook.hold hf₀.ready.alive) i hcalls
    rw [hrun]
    rcases hsight : c.sight .node r i (Engine.ofFuel n room) v with ⟨stop | s, w₁⟩ <;>
      rw [hsight] at hresult hlook
    · obtain ⟨s, _, _, hfound, _⟩ | ⟨stop', w₂, hfound, hstopped, hlast⟩ := hcases
      · rw [hresult] at hfound
        cases hfound
      · rw [hfound] at hresult
        cases hresult
        rw [hstopped] at hlook ⊢
        exact .stopped ((World.outlook_dropContext (hlast.shared hf₀.ready.alive)).trans hlook)
          (hlast.drop hf₀.ready.alive)
    · obtain ⟨s', handle, w₂, hfound, hlooked, hlast, hget⟩ | ⟨_, _, hfound, _⟩ := hcases
      · rw [hresult] at hfound
        cases hfound
        rw [hlooked] at hlook ⊢
        rw [hgiven, Context.seesAll_counted, Context.counted_identities] at hget
        exact .found ((World.outlook_dropContext (hlast.shared hf₀.ready.alive)).trans hlook)
          (hlast.drop hf₀.ready.alive) hget
      · rw [hfound] at hresult
        cases hresult

end Wraps

/-! ## Both lists -/

/-- Two proxies for a node, one from each of two worlds: they have one key, and lead to one object. -/
structure SameNode (c : ContextId) (w₁ v₁ : World) (p q : Node) : Prop where
  context : p.context = c ∧ q.context = c
  key : p.key = q.key
  object : ∃ v, (w₁.context c).custodian.get p.handle = .ok v ∧ (v₁.context c).custodian.get q.handle = .ok v

/-- Two lists of the nodes in an array end alike: they have the same nodes in the same order, or fail at the
same index with the same error. -/
inductive SameEnd (c : ContextId) (length : Nat) :
    Except (Stop SessionError) (List Node) × World → Except (Stop SessionError) (List Node) × World → Prop
  | all {ps qs : List Node} {w₁ v₁ : World} : ps.length = length →
      List.Forall₂ (SameNode c w₁ v₁) ps qs → SameEnd c length (.ok ps, w₁) (.ok qs, v₁)
  | first {i : Nat} {stop : Stop SessionError} {w₁ v₁ : World} : i < length → SameEnd c length
      (.error (stop.map (.located (Conversion.elementSite i))), w₁)
      (.error (stop.map (.located ("NodeList" ++ Conversion.elementSite i))), v₁)

/-- A failure at a site is the same failure at the site in the list. -/
theorem SameEnd.failure {run run' : Except (Stop SessionError) (List Node) × World} {site : String}
    {e : SessionError} (h : SameEnd c length run run') (hrun : run.1 = .error (.failed (.located site e))) :
    run'.1 = .error (.failed (.located ("NodeList" ++ site) e)) := by
  cases h with
  | all _ _ => cases hrun
  | @first i stop _ _ _ =>
    cases stop with
    | failed e' =>
      cases hrun
      rfl
    | exhausted => cases hrun
    | senseless => cases hrun

theorem toList_eq (l : NodeList) :
    l.toList = List.filterMap id <$> collect l.element? (List.range l.length) := rfl

/-- Proxies that stand for one row of sightings are for the same nodes. -/
theorem sameNodes {ps qs : List Node} (hr : (w.context c).Ready) (hholds : (w.context c).Holds)
    (hsize : (w.context c).custodian.slots.size + ss.length ≤ 2 ^ 32)
    (hps : c.Stand .node (w.context c) ss ps) (hqs : c.Stand .node (w₀.context c) ss qs)
    (hw : c.Took .node w ss w₁) (hw₀ : c.Took .node w₀ ss v₁)
    (hcached : ∀ key, (v₁.context c).cached .node key = (w₁.context c).cached .node key) :
    List.Forall₂ (SameNode c w₁ v₁) ps qs := by
  refine List.forall₂_iff_get.2 ⟨hps.length.trans hqs.length.symm, fun i hi hi' => ?_⟩
  have hs : i < ss.length := hi.trans_eq hps.length
  obtain ⟨handle, hp, hget⟩ := hps.proxies i hs
  obtain ⟨handle', hq, hget'⟩ := hqs.proxies i hs
  obtain ⟨failures, tag, hcontext⟩ := hw
  obtain ⟨failures', tag', hcontext'⟩ := hw₀
  obtain ⟨v, hv⟩ := Context.cached_of_mem hr hholds hsize (k := .node) (List.getElem_mem hs)
  have hlast := hcached ss[i].key
  rw [hcontext, hcontext', Context.booked_cached, Context.booked_cached, hv, Context.cached, hget',
    Option.map_some, Option.some_inj] at hlast
  rw [Context.cached, hget, Option.map_some, Option.some_inj] at hv
  rw [List.get_eq_getElem, List.get_eq_getElem, (List.getElem?_eq_some_iff.1 hp).2,
    (List.getElem?_eq_some_iff.1 hq).2]
  exact ⟨⟨rfl, rfl⟩, rfl, v, by rw [hcontext]; exact hv, by rw [hcontext']; exact hlast⟩

namespace Wraps

/-- After the same sightings, the same is cached as without the list. -/
theorem cached (hl : l.Wraps c r length w w₀) (hr : (w.context c).Ready) (hholds : (w.context c).Holds)
    (hsize : (w.context c).custodian.slots.size + ss.length < 2 ^ 32) (hw : c.Took .node w ss w₁)
    (hw₀ : c.Took .node w₀ ss v₁) (k : ProxyKind) (key : Int64) :
    (v₁.context c).cached k key = (w₁.context c).cached k key := by
  obtain ⟨failures, tag, hcontext⟩ := hw
  obtain ⟨failures', tag', hcontext'⟩ := hw₀
  have hslots : ((w.context c).retaining (.object r)).custodian.slots.size + ss.length ≤ 2 ^ 32 := by
    have hpush : ((w.context c).retaining (.object r)).custodian.slots.size =
        (w.context c).custodian.slots.size + 1 := Array.size_push _
    omega
  rw [hcontext, hcontext', Context.booked_cached, Context.booked_cached, hl.retained,
    Context.cached_seesAll (hr.retaining _) (hholds.retaining _) hslots,
    Context.cached_seesAll hr hholds hsize.le, Context.cached_retaining hr.isOpen hholds]

/-- The lazy list of an array ends as the conversion to a list of proxies does from where the array was
wrapped, and leaves the same behind. -/
theorem agrees (hl : l.Wraps c r length w w₀) (hf : c.NumbersBy f w) (hholds : (w.context c).Holds)
    (hlength : w.heap.arrayLength? (.object r) = some length)
    (hsize : (w.context c).custodian.slots.size + length < 2 ^ 32)
    (he : (c.sightAll r (List.range length) (Engine.ofFuel n room) w).2.hostCalls = w.hostCalls) :
    SameEnd c length (c.toProxies .node (.object r) (Engine.ofFuel n room) w)
        (l.toList (Engine.ofFuel n room) w₀) ∧
      (l.toList (Engine.ofFuel n room) w₀).2.outlook =
        (c.toProxies .node (.object r) (Engine.ofFuel n room) w).2.outlook ∧
      ∀ k key, ((l.toList (Engine.ofFuel n room) w₀).2.context c).cached k key =
        ((c.toProxies .node (.object r) (Engine.ofFuel n room) w).2.context c).cached k key := by
  have heager : c.toProxies .node (.object r) (Engine.ofFuel n room) w =
      collect (Conversion.listStep c (c.toProxy .node) r) (List.range length) (Engine.ofFuel n room) w :=
    (ContextId.toProxies_visits hlength .node _).unique (collect_visits _ _ w length)
  have hlazy := map_eq (List.filterMap id) (collect l.element? (List.range length)) (Engine.ofFuel n room) w₀
  rw [← hl.length, ← toList_eq, hl.length] at hlazy
  have hregisters := ContextId.listStep_registers (Engine.ofFuel_keepsUnless c n room) hf.ready r length
  have hregisters' := hl.registers hf (by omega) n room
  have hstart : c.LookupPair r w w [] w w := ⟨rfl, .refl .., .refl .., length, hlength⟩
  have hstart' : c.LookupPair r w w₀ [] w w₀ := ⟨hl.outlook, .refl .., .refl .., length, hlength⟩
  have hsights := collect_visits (c.sight .node r) (Engine.ofFuel n room) w length
  rw [ContextId.sightAll] at he
  rw [heager, hlazy]
  generalize collect (c.sight .node r) (List.range length) (Engine.ofFuel n room) w = run at he hsights
  cases hsights with
  | @done ss w₁ hv hss =>
    obtain ⟨ps, u, hrun, hpair, hstand⟩ := hregisters.done hf hf hstart hv hss he
    obtain ⟨qs, v, hrun', hpair', hstand'⟩ := hregisters'.done hf (hl.numbersBy hf) hstart' hv hss he
    have hcached := hl.cached hf.ready hholds (hss ▸ hsize) hpair.took hpair'.took
    rw [hrun, hrun', List.map_id]
    have hall : (qs.map some).filterMap id = qs := by simp
    refine ⟨?_, hpair'.outlook.trans hpair.outlook.symm, hcached⟩
    change SameEnd c length (.ok ps, u) (.ok ((qs.map some).filterMap id), v)
    rw [hall]
    exact .all (hstand.length.trans hss) (sameNodes hf.ready hholds (by omega) hstand hstand' hpair.took
      hpair'.took (hcached .node))
  | @stopped ss w₁ stop w₂ hv hlt hstop =>
    obtain ⟨u, hrun, ho, htook⟩ := hregisters.stopped hf hf hstart hv hlt hstop he
    obtain ⟨v, hrun', ho', htook'⟩ := hregisters'.stopped hf (hl.numbersBy hf) hstart' hv hlt hstop he
    rw [hrun, hrun']
    exact ⟨.first hlt, ho'.trans ho.symm, hl.cached hf.ready hholds (by omega) htook htook'⟩

end Wraps

/-! ## Accesses in any order -/

/-- What accesses at some indices give if some nodes were found there: nothing past the end, and else the
proxy by the entry for the node. -/
inductive Accessed (c : ContextId) (cx : Context) (length : Nat) :
    List Nat → List Sighting → List (Option Node) → Prop
  | nil : Accessed c cx length [] [] []
  | past {i : Nat} {is : List Nat} {ss : List Sighting} {os : List (Option Node)} : length ≤ i →
      Accessed c cx length is ss os → Accessed c cx length (i :: is) ss (none :: os)
  | entry {i : Nat} {is : List Nat} {s : Sighting} {ss : List Sighting} {os : List (Option Node)}
      {handle : HandleId} : i < length → (cx.identities .node).get? s.key = some handle →
      Accessed c cx length is ss os →
      Accessed c cx length (i :: is) (s :: ss) (some ⟨c, s.key, handle⟩ :: os)

/-- The proxy by the entry for the node at an index of a row. -/
def nodeAt (c : ContextId) (cx : Context) (row : List Sighting) (i : Nat) : Option Node :=
  row[i]?.bind fun s => ((cx.identities .node).get? s.key).map fun handle => ⟨c, s.key, handle⟩

/-- If what is found is always what a row has at the index, the accesses give the proxies by its entries. -/
theorem Accessed.eq_nodeAt {cx : Context} {row : List Sighting} {is : List Nat} {os : List (Option Node)}
    (h : Accessed c cx row.length is ss os) (hss : ss = is.filterMap (row[·]?)) :
    os = is.map (nodeAt c cx row) ∧ ∀ i ∈ is, i < row.length → nodeAt c cx row i ∈ Set.range some := by
  induction h with
  | nil => exact ⟨rfl, nofun⟩
  | @past i is ss os hi _ ih =>
    have hnone : row[i]? = none := List.getElem?_eq_none hi
    rw [List.filterMap_cons_none hnone] at hss
    obtain ⟨rfl, hsome⟩ := ih hss
    refine ⟨?_, fun j hj hlt => ?_⟩
    · rw [List.map_cons, nodeAt, hnone]
      rfl
    · obtain rfl | hj := List.mem_cons.1 hj
      · omega
      · exact hsome j hj hlt
  | @entry i is s ss os handle hi hget _ ih =>
    have hi' : row[i]? = some row[i] := List.getElem?_eq_getElem hi
    rw [List.filterMap_cons_some hi', List.cons.injEq] at hss
    obtain ⟨rfl, hss⟩ := hss
    obtain ⟨rfl, hsome⟩ := ih hss
    have hnode : nodeAt c cx row i = some ⟨c, row[i].key, handle⟩ := by
      rw [nodeAt, hi', Option.bind_some, hget, Option.map_some]
    refine ⟨by rw [List.map_cons, hnode], fun j hj hlt => ?_⟩
    obtain rfl | hj := List.mem_cons.1 hj
    · exact ⟨_, hnode.symm⟩
    · exact hsome j hj hlt

/-- If each sighting of a row has an entry, the proxies by the entries are a list. -/
theorem nodes_of_row {cx : Context} {row : List Sighting}
    (h : ∀ i < row.length, nodeAt c cx row i ∈ Set.range some) :
    ∃ ps : List Node, ps.length = row.length ∧ nodeAt c cx row = (ps[·]?) ∧
      (List.range row.length).map (nodeAt c cx row) = ps.map some := by
  have hall : (List.range row.length).map (nodeAt c cx row) ∈ Set.range (List.map some) := by
    rw [Set.range_list_map]
    intro o ho
    obtain ⟨i, hi, rfl⟩ := List.mem_map.1 ho
    exact h i (List.mem_range.1 hi)
  obtain ⟨ps, hps⟩ := hall
  have hlength : ps.length = row.length := by simpa using congrArg List.length hps
  refine ⟨ps, hlength, funext fun i => ?_, hps.symm⟩
  rcases Nat.lt_or_ge i row.length with hi | hi
  · have hat := congrArg (·[i]?) hps
    simpa [hi, hlength] using hat.symm
  · rw [nodeAt, List.getElem?_eq_none hi, List.getElem?_eq_none (hlength.trans_le hi)]
    rfl

namespace Wraps

/-- Accesses go well where looking at the elements does, and find the same. -/
theorem accesses (hl : l.Wraps c r length w w₀) (hf : c.NumbersBy f w)
    (hsize : (w.context c).custodian.slots.size < 2 ^ 32) {ts : List Sighting}
    (h : c.LookupPair r w w₀ ts w₁ v₁) (is : List Nat)
    (hsights : c.sightAll r (is.filter (· < length)) (Engine.ofFuel n room) w₁ = (.ok ss, w₂))
    (he : w₂.hostCalls = w₁.hostCalls) :
    ∃ os v₂, collect l.element? is (Engine.ofFuel n room) v₁ = (.ok os, v₂) ∧
      c.LookupPair r w w₀ (ts ++ ss) w₂ v₂ ∧
      Accessed c ((w₀.context c).seesAll .node (ts ++ ss)) length is ss os := by
  induction is generalizing ts ss w₁ v₁ with
  | nil =>
    cases hsights
    rw [List.append_nil]
    exact ⟨[], v₁, rfl, h, .nil⟩
  | cons i is ih =>
    rcases Nat.lt_or_ge i length with hi | hi
    · rw [List.filter_cons_of_pos (by simpa using hi)] at hsights
      obtain ⟨s, w', ss', hlook, hrest, rfl⟩ := collect_cons_ok hsights
      obtain ⟨hfirst, hafter⟩ := World.hostCalls_parts ((ContextId.sight_nonRetaining i).calls_le hlook)
        ((ContextId.sightAll_nonRetaining _).calls_le hrest) he
      obtain ⟨hregistered, hlooked, harray⟩ := h.step hf (hl.numbersBy hf) (hl.registers hf hsize n room) hi
        (by rw [hlook]; exact hfirst)
      rw [hlook] at hregistered hlooked harray
      rcases hrun : l.element? i (Engine.ofFuel n room) v₁ with ⟨result, v'⟩
      rw [hrun] at hregistered
      cases hregistered with
      | @found _ _ _ handle ho htook hget =>
        obtain ⟨os, v₂, hos, hpair, haccessed⟩ := ih ⟨ho, hlooked, htook, harray⟩ hrest hafter
        rw [List.append_assoc, List.singleton_append] at hpair haccessed
        refine ⟨some ⟨c, s.key, handle⟩ :: os, v₂, collect_cons_of_ok hrun hos, hpair,
          .entry hi ?_ haccessed⟩
        -- The entry was made by now, and the sightings to come leave it as it is.
        rw [← List.singleton_append, ← List.append_assoc, Context.seesAll_append]
        exact Context.seesAll_get?_of_some hget ss'
    · rw [List.filter_cons_of_neg (by simpa using hi)] at hsights
      obtain ⟨os, v₂, hos, hpair, haccessed⟩ := ih h hsights he
      have hpast := element?_past (hl.length.trans_le hi) (Engine.ofFuel n room) v₁
      exact ⟨none :: os, v₂, collect_cons_of_ok hpast hos, hpair, .past hi haccessed⟩

end Wraps

/-- Accesses some elements, lists all of them, and accesses some again. -/
def browse (l : NodeList) (before after : List Nat) :
    Operation (List (Option Node) × List Node × List (Option Node)) := do
  let xs ← collect l.element? before
  let ps ← l.toList
  let ys ← collect l.element? after
  pure (xs, ps, ys)

theorem browse_of_collect {before after : List Nat} {g : Nat → Option Node}
    (h : collect l.element? (before ++ (List.range l.length ++ after)) E w =
      (.ok ((before ++ (List.range l.length ++ after)).map g), w')) :
    l.browse before after E w =
      (.ok (before.map g, ((List.range l.length).map g).filterMap id, after.map g), w') := by
  obtain ⟨w₁, hbefore, hrest⟩ := collect_append_ok h
  obtain ⟨w₂, hall, hafter⟩ := collect_append_ok hrest
  have hlist : l.toList E w₁ = (.ok (((List.range l.length).map g).filterMap id), w₂) := by
    rw [toList_eq, map_eq, hall]
    rfl
  exact (bind_of_ok hbefore).trans ((bind_of_ok hlist).trans (bind_of_ok hafter))

end NodeList

/-- Looking at the elements at some indices of an array finds at each of them what a row has there, however
often and in whatever order. -/
structure ContextId.Shows (c : ContextId) (r : ObjectRef) (E : Engine) (w : World) (row : List Sighting)
    (is : List Nat) : Prop where
  found : (c.sightAll r (is.filter (· < row.length)) E w).1 = .ok (is.filterMap (row[·]?))
  calls : (c.sightAll r (is.filter (· < row.length)) E w).2.hostCalls = w.hostCalls

namespace NodeList

/-- What a list that was made of an array does, against the array in the world that it was made in. -/
structure Faithful (c : ContextId) (r : ObjectRef) (length : Nat) (E : Engine) (w : World) (l : NodeList)
    (w₀ : World) : Prop where
  /-- It lists what the conversion to a list of proxies lists. -/
  agrees : (c.sightAll r (List.range length) E w).2.hostCalls = w.hostCalls →
    SameEnd c length (c.toProxies .node (.object r) E w) (l.toList E w₀) ∧
      (l.toList E w₀).2.outlook = (c.toProxies .node (.object r) E w).2.outlook ∧
      ∀ k key, ((l.toList E w₀).2.context c).cached k key =
        ((c.toProxies .node (.object r) E w).2.context c).cached k key
  /-- Accesses before and afterwards give the elements of that list, if these stay what they are. -/
  indexed : ∀ (row : List Sighting) (before after : List Nat), row.length = length →
    c.Shows r E w row (before ++ (List.range length ++ after)) →
      ∃ ps v, ps.length = length ∧
        l.browse before after E w₀ = (.ok (before.map (ps[·]?), ps, after.map (ps[·]?)), v)
  /-- After any accesses, one more reads the element at its index and computes the key of that. -/
  reads : ∀ (is : List Nat) (ss : List Sighting) (w₁ : World),
    c.sightAll r (is.filter (· < length)) E w = (.ok ss, w₁) → w₁.hostCalls = w.hostCalls →
      ∃ os v, collect l.element? is E w₀ = (.ok os, v) ∧ v.outlook = w₁.outlook ∧
        ∀ i, (length ≤ i → l.element? i E v = (.ok none, v)) ∧
          (i < length → (c.sight .node r i E v).2.hostCalls = v.hostCalls →
            (l.element? i E v).2.outlook = (c.sight .node r i E v).2.outlook)

namespace Wraps

theorem indexed (hl : l.Wraps c r length w w₀) (hf : c.NumbersBy f w)
    (hlength : w.heap.arrayLength? (.object r) = some length)
    (hsize : (w.context c).custodian.slots.size < 2 ^ 32) {row : List Sighting} {before after : List Nat}
    (hrow : row.length = length)
    (hshows : c.Shows r (Engine.ofFuel n room) w row (before ++ (List.range length ++ after))) :
    ∃ ps v, ps.length = length ∧ l.browse before after (Engine.ofFuel n room) w₀ =
      (.ok (before.map (ps[·]?), ps, after.map (ps[·]?)), v) := by
  subst hrow
  obtain ⟨hfound, hcalls⟩ := hshows
  have hstart : c.LookupPair r w w₀ [] w w₀ := ⟨hl.outlook, .refl .., .refl .., row.length, hlength⟩
  obtain ⟨os, v, hrun, -, haccessed⟩ :=
    hl.accesses hf hsize hstart _ (Prod.ext hfound rfl) hcalls
  generalize (w₀.context c).seesAll .node _ = cx at haccessed
  obtain ⟨rfl, hsome⟩ := haccessed.eq_nodeAt rfl
  -- The indices of the array are among the accesses.
  obtain ⟨ps, hlen, hat, hall⟩ := nodes_of_row fun i hi => hsome i (by simp [hi]) hi
  refine ⟨ps, v, hlen, ?_⟩
  have hlist : (ps.map some).filterMap id = ps := by simp
  rw [browse_of_collect (hl.length.symm ▸ hrun), hl.length, hall, hlist, hat]

theorem reads (hl : l.Wraps c r length w w₀) (hf : c.NumbersBy f w)
    (hlength : w.heap.arrayLength? (.object r) = some length)
    (hsize : (w.context c).custodian.slots.size < 2 ^ 32) {is : List Nat}
    (hsights : c.sightAll r (is.filter (· < length)) (Engine.ofFuel n room) w = (.ok ss, w₁))
    (he : w₁.hostCalls = w.hostCalls) :
    ∃ os v, collect l.element? is (Engine.ofFuel n room) w₀ = (.ok os, v) ∧ v.outlook = w₁.outlook ∧
      ∀ i, (length ≤ i → l.element? i (Engine.ofFuel n room) v = (.ok none, v)) ∧
        (i < length → (c.sight .node r i (Engine.ofFuel n room) v).2.hostCalls = v.hostCalls →
          (l.element? i (Engine.ofFuel n room) v).2.outlook =
            (c.sight .node r i (Engine.ofFuel n room) v).2.outlook) := by
  have hstart : c.LookupPair r w w₀ [] w w₀ := ⟨hl.outlook, .refl .., .refl .., length, hlength⟩
  obtain ⟨os, v, hrun, hpair, -⟩ := hl.accesses hf hsize hstart is hsights he
  have harray : ∃ m, v.heap.arrayLength? (.object r) = some m := by
    have hheap : v.heap = w₁.heap := congrArg Outlook.heap hpair.outlook
    rw [hheap]
    exact hpair.array
  refine ⟨os, v, hrun, hpair.outlook, fun i => ⟨fun hi => ?_, fun hi hcalls => ?_⟩⟩
  · exact element?_past (hl.length.trans_le hi) _ v
  · exact ((hl.registers hf hsize n room).registered i hi _ v hpair.took harray hcalls).outlook

end Wraps

/-- An array of an open context can be wrapped, and the list that this makes is faithful to it, as long as
foreign code does not call back: no host function that runs steps is called by looking at the elements. -/
theorem toNodeList_faithful {F : Multiset Reference} (hs : w.Sound F) (hv : c.index < w.contexts.size)
    (ho : (w.context c).custodian.closed = false)
    (hlength : w.heap.arrayLength? (.object r) = some length)
    (hsize : (w.context c).custodian.slots.size + length < 2 ^ 32) (n room : Nat) :
    ∃ id w₀, Conversion.toNodeList c (.object r) (Engine.ofFuel n room) w = (.ok id, w₀) ∧
      Faithful c r length (Engine.ofFuel n room) w (w₀.list id) w₀ := by
  have hslots : (w.context c).custodian.slots.size < 2 ^ 32 := by omega
  obtain ⟨f, hf⟩ := Holdings.Sound.numbersBy hs hv ho hslots.le
  obtain ⟨w₀, hrun, hl⟩ := toNodeList_wraps hf.ready hlength (Engine.ofFuel n room)
  refine ⟨_, w₀, hrun, hl.agrees hf (hs.holds hv ho hslots.le) hlength hsize, ?_, ?_⟩
  · exact fun row before after hrow hshows => hl.indexed hf hlength hslots hrow hshows
  · exact fun is ss w₁ hsights he => hl.reads hf hlength hslots hsights he

/-- Makes a list of the sample array. -/
def arrayList (items : List Value) : Except (Stop SessionError) ListId × World :=
  Conversion.toNodeList ⟨0⟩ (.object ContextId.arrayRef) (Engine.ofFuel 3 stackSize)
    (ContextId.arrayWorld items)

/-- What is found by looking at the sample array at some indices. -/
def arraySights (items : List Value) (is : List Nat) : Except (Stop SessionError) (List Sighting) × World :=
  ContextId.sightAll ⟨0⟩ ContextId.arrayRef is (Engine.ofFuel 3 stackSize) (ContextId.arrayWorld items)

/-- Two objects that share a key are one node, whichever is accessed first. A null is what both conversions
fail with. -/
theorem toNodeList_faithful_sample :
    (∃ id w₀ ps v, arrayList [.object ⟨6⟩, .object ⟨4⟩] = (.ok id, w₀) ∧ ps.length = 2 ∧
      (w₀.list id).browse [1, 5, 0] [1] (Engine.ofFuel 3 stackSize) w₀ =
        (.ok ([ps[1]?, none, ps[0]?], ps, [ps[1]?]), v)) ∧
    ∃ id w₀ site, arrayList ContextId.brokenPair = (.ok id, w₀) ∧
      (ContextId.arrayRun ContextId.brokenPair).1 = .error (.failed (.located site .missingValue)) ∧
      ((w₀.list id).toList (Engine.ofFuel 3 stackSize) w₀).1 =
        .error (.failed (.located ("NodeList" ++ site) .missingValue)) := by
  have hholdings (items : List Value) :
      (ContextId.arrayWorld items).toHoldings = (Session.sampleWorld 1).toHoldings := by
    rw [ContextId.arrayWorld]
  have hsound (items : List Value) : (ContextId.arrayWorld items).Sound 0 := by
    rw [hholdings]
    exact (Session.last_transitions.moves.sound_later Holdings.empty_sound).1
  have hopen (items : List Value) : (⟨0⟩ : ContextId).index < (ContextId.arrayWorld items).contexts.size ∧
      ((ContextId.arrayWorld items).context ⟨0⟩).custodian.closed = false ∧
      ((ContextId.arrayWorld items).context ⟨0⟩).custodian.slots.size + 3 < 2 ^ 32 := by
    rw [hholdings]
    decide +kernel
  constructor
  · let row : List Sighting := [⟨⟨6⟩, 7⟩, ⟨⟨4⟩, 7⟩]
    obtain ⟨hv, ho, hsize⟩ := hopen [.object ⟨6⟩, .object ⟨4⟩]
    have harray : (ContextId.arrayWorld [.object ⟨6⟩, .object ⟨4⟩]).heap.arrayLength?
        (.object ContextId.arrayRef) = some 2 := by decide +kernel
    obtain ⟨id, w₀, hlist, hfaithful⟩ :=
      toNodeList_faithful (hsound _) hv ho harray (by omega) 3 stackSize
    have hsights : (arraySights [.object ⟨6⟩, .object ⟨4⟩] [1, 0, 0, 1, 1]).1.toOption =
        some [⟨⟨4⟩, 7⟩, ⟨⟨6⟩, 7⟩, ⟨⟨6⟩, 7⟩, ⟨⟨4⟩, 7⟩, ⟨⟨4⟩, 7⟩] := by decide +kernel
    have hshows : ContextId.Shows ⟨0⟩ ContextId.arrayRef (Engine.ofFuel 3 stackSize)
        (ContextId.arrayWorld [.object ⟨6⟩, .object ⟨4⟩]) row ([1, 5, 0] ++ (List.range 2 ++ [1])) :=
      ⟨congrArg Prod.fst (Session.run_of_toOption hsights), by decide +kernel⟩
    obtain ⟨ps, v, hlength, hrun⟩ := hfaithful.indexed row [1, 5, 0] [1] rfl hshows
    refine ⟨id, w₀, ps, v, hlist, hlength, ?_⟩
    have hpast : ps[5]? = none := List.getElem?_eq_none (by omega)
    rw [hrun, List.map_cons, List.map_cons, hpast]
    rfl
  · obtain ⟨hv, ho, hsize⟩ := hopen ContextId.brokenPair
    have harray : (ContextId.arrayWorld ContextId.brokenPair).heap.arrayLength?
        (.object ContextId.arrayRef) = some 3 := by decide +kernel
    obtain ⟨id, w₀, hlist, hfaithful⟩ := toNodeList_faithful (hsound _) hv ho harray hsize 3 stackSize
    obtain ⟨hend, -⟩ := hfaithful.agrees (by decide +kernel)
    have hfails : failure? (ContextId.arrayRun ContextId.brokenPair).1 =
        some (.located "[1]" .missingValue) := by decide +kernel
    have heager := congrArg Prod.fst (run_of_failure hfails)
    exact ⟨id, w₀, "[1]", hlist, heager, hend.failure heager⟩

end NodeList

end ProxySession
