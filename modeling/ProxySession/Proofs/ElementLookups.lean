import ProxySession.Proofs.ForeignOperations
import ProxySession.Proofs.Listing

/-!
# Lookups of elements

What is found at an index of an array does not depend on what the context retains, as long as nodes are
numbered by the same function. So a run that registers the nodes that it looks up can be paired with one
that only looks at them: it finds the same, and it ends where the other one ends.
-/

namespace ProxySession

open Effect

variable {c : ContextId} {r : ObjectRef} {f : Value} {n room length i : Nat} {w w' w₀ w₁ w₂ v₁ : World}
  {E : Engine} {ss : List Sighting}

/-- An array stays one. -/
theorem Heap.Evolves.isArray {h h' : Heap} (he : h.Evolves h')
    (harray : ∃ m, h.arrayLength? (.object r) = some m) : ∃ m, h'.arrayLength? (.object r) = some m := by
  have hiff {h : Heap} : (∃ m, h.arrayLength? (.object r) = some m) ↔
      ∃ m, (h.object r).kind = .array m := by
    rw [Heap.arrayLength?]
    cases (h.object r).kind <;> simp
  obtain ⟨m, hkind⟩ := hiff.1 harray
  have hr : r.index < h.objects.size := by
    by_contra hout
    have hplain : h.object r = .plain := getD_of_size_le (Nat.le_of_not_lt hout)
    rw [hplain] at hkind
    cases hkind
  have hstays := he.kinds r hr
  rw [hkind] at hstays
  generalize hk : (h'.object r).kind = k at hstays
  cases hstays with
  | same => exact hiff.2 ⟨m, hk⟩
  | array _ m' => exact hiff.2 ⟨m', hk⟩

namespace ContextId

/-! ## The function that numbers nodes -/

/-- An open context that numbers nodes with a function. -/
structure NumbersBy (c : ContextId) (f : Value) (w : World) : Prop where
  ready : (w.context c).Ready
  node : (w.context c).custodian.get (w.context c).nodeId = .ok f

/-- The key of a node by such a function. -/
def keyThrough (c : ContextId) (f : Value) (o : ObjectRef) : Operation Int64 := do
  let f ← Operation.function f
  let v ← (c.callFunction f [.object o]).located "getNodeId"
  (Conversion.required .toInt64 v).located "getNodeId"

/-- What is found at an index, by such a function. -/
def sightThrough (c : ContextId) (f : Value) (r : ObjectRef) (i : Nat) : Operation Sighting := do
  let v ← c.element r i
  if v.isAbsent then
    fail .missingValue
  else
    let o ← Operation.object "Node" v
    let key ← c.keyThrough f o
    pure ⟨o, key⟩

theorem keyThrough_repeatable (f : Value) (o : ObjectRef) : (c.keyThrough f o).Repeatable := by
  unfold keyThrough Conversion.required
  grind

theorem sightThrough_repeatable (f : Value) (r : ObjectRef) (i : Nat) : (c.sightThrough f r i).Repeatable := by
  unfold sightThrough
  have hkey := keyThrough_repeatable (c := c) f
  grind

theorem NumbersBy.nodeKey_eq (hf : c.NumbersBy f w) (o : ObjectRef) (E : Engine) :
    c.nodeKey o E w = c.keyThrough f o E w := by
  have hvalue : c.value (w.context c).nodeId E w = (.ok f, w) := by
    rw [value, world_bind, hf.node]
    rfl
  rw [nodeKey, world_bind, function, bind_assoc, bind_of_ok hvalue]
  rfl

theorem sight_nonRetaining (i : Nat) : (c.sight .node r i).NonRetaining := by
  have hkey (o : ObjectRef) : (c.identityKey .node o).NonRetaining := c.nodeKey_nonRetaining o
  unfold sight
  grind

theorem sight_heap (i : Nat) (w : World) :
    w.heap.Evolves (c.sight .node r i (Engine.ofFuel n room) w).2.heap := by
  have hneutral : (c.sight .node r i).Neutral [] := (sight_nonRetaining i).neutral
  exact (hneutral _ (Engine.ofFuel_sound n room) 0 w (by simp)).heap

theorem Took.refl (c : ContextId) (k : ProxyKind) (w : World) : c.Took k w [] w := ⟨_, _, rfl⟩

theorem Took.numbersBy {k : ProxyKind} (ht : c.Took k w ss w') (hf : c.NumbersBy f w) :
    c.NumbersBy f w' := by
  refine ⟨ht.ready hf.ready, ?_⟩
  obtain ⟨failures, tag, hcontext⟩ := ht
  obtain ⟨_, hslot⟩ := Custodian.get_ok hf.node
  have hnode : (w'.context c).nodeId = (w.context c).nodeId := by
    rw [hcontext]
    exact Context.seesAll_nodeId k (w.context c) ss
  rw [hnode, hcontext]
  exact Custodian.get_of_holds (hf.ready.seesAll k ss).isOpen (Context.seesAll_slot hslot k ss)

/-- The element is read first, so its calls count. -/
theorem element_calls (hE : E.Obeys (World.KeepsUnless Crossing.isHost c)) (w : World) :
    (c.element r i E w).2.hostCalls ≤ (c.sight .node r i E w).2.hostCalls := by
  rw [sight]
  rcases hrun : c.element r i E w with ⟨stop | v, w₁⟩
  · rw [bind_of_error hrun]
  · rw [bind_of_ok hrun]
    cases v with
    | object o =>
      have hrest : (c.nodeKey o >>= fun key => pure (⟨o, key⟩ : Sighting)).NonRetaining :=
        (c.nodeKey_nonRetaining o).bind fun key => (ForeignActs.pure _).nonRetaining
      exact (hrest _ (World.KeepsUnless.contextRegime _ c) E hE w₁).tally
    | _ => exact Nat.le_refl _

/-- The function with which nodes are numbered is still there once the element is read. -/
theorem NumbersBy.sight_eq (hf : c.NumbersBy f w) (hE : E.Obeys (World.KeepsUnless Crossing.isHost c))
    (he : (c.element r i E w).2.hostCalls = w.hostCalls) :
    c.sight .node r i E w = c.sightThrough f r i E w := by
  have hunless := c.element_nonRetaining r i _ (World.KeepsUnless.contextRegime _ c) E hE w
  rw [sight, sightThrough]
  rcases hrun : c.element r i E w with ⟨stop | v, w₁⟩
  · rw [bind_of_error hrun, bind_of_error hrun]
  · rw [bind_of_ok hrun, bind_of_ok hrun]
    rw [hrun] at hunless he
    have hf₁ := ((Took.refl c .node w).of_keepsUnless hunless he).numbersBy hf
    cases v with
    | object o =>
      change ((c.nodeKey o >>= fun key => pure (⟨o, key⟩ : Sighting)) E w₁) =
        ((c.keyThrough f o >>= fun key => pure (⟨o, key⟩ : Sighting)) E w₁)
      rw [bind_eq, bind_eq, hf₁.nodeKey_eq]
    | _ => rfl

/-- What is found at an index does not depend on what the context retains. -/
theorem NumbersBy.sight_again (hf : c.NumbersBy f w) (hf' : c.NumbersBy f w')
    (ho : w'.outlook = w.outlook) (i : Nat)
    (he : (c.sight .node r i (Engine.ofFuel n room) w).2.hostCalls = w.hostCalls) :
    (c.sight .node r i (Engine.ofFuel n room) w').1 = (c.sight .node r i (Engine.ofFuel n room) w).1 ∧
      (c.sight .node r i (Engine.ofFuel n room) w').2.outlook =
        (c.sight .node r i (Engine.ofFuel n room) w).2.outlook := by
  have hrepeatable := Engine.ofFuel_repeatable n room
  have hE := Engine.ofFuel_keepsUnless c n room
  have helement := c.element_repeatable r i _ hrepeatable
  have hread : (c.element r i (Engine.ofFuel n room) w).2.hostCalls = w.hostCalls :=
    Nat.le_antisymm ((element_calls hE w).trans_eq he) (helement.calls w)
  have hread' : (c.element r i (Engine.ofFuel n room) w').2.hostCalls = w'.hostCalls := by
    rw [World.hostCalls, World.tally_of_outlook (helement.again ho hread).2, World.hostCalls,
      World.tally_of_outlook ho]
    exact hread
  rw [hf.sight_eq hE hread] at he ⊢
  rw [hf'.sight_eq hE hread']
  exact (sightThrough_repeatable f r i _ hrepeatable).again ho he

/-! ## Looking and registering -/

/-- Looks at the elements at some indices, one after the other. -/
def sightAll (c : ContextId) (r : ObjectRef) (is : List Nat) : Operation (List Sighting) :=
  collect (c.sight .node r) is

theorem sightAll_nonRetaining (is : List Nat) : (c.sightAll r is).NonRetaining := .collect sight_nonRetaining is

/-- A lookup that registered what was found, or stopped as the search did. -/
inductive Registered {α : Type} (c : ContextId) (w : World) (ss : List Sighting) (give : Node → α)
    (site : String) : Except (Stop SessionError) Sighting × World → Except (Stop SessionError) α × World → Prop
  | found {s : Sighting} {w₁ v₁ : World} {handle : HandleId} : v₁.outlook = w₁.outlook →
      c.Took .node w (ss ++ [s]) v₁ →
      (((w.context c).seesAll .node (ss ++ [s])).identities .node).get? s.key = some handle →
      Registered c w ss give site (.ok s, w₁) (.ok (give ⟨c, s.key, handle⟩), v₁)
  | stopped {stop : Stop SessionError} {w₁ v₁ : World} : v₁.outlook = w₁.outlook →
      c.Took .node w ss v₁ →
      Registered c w ss give site (.error stop, w₁) (.error (stop.map (.located site)), v₁)

/-- A lookup leaves the outlook that the search leaves. -/
theorem Registered.outlook {α : Type} {give : Node → α} {site : String}
    {look : Except (Stop SessionError) Sighting × World} {run : Except (Stop SessionError) α × World}
    (h : Registered c w ss give site look run) : run.2.outlook = look.2.outlook := by
  cases h with
  | found ho _ _ => exact ho
  | stopped ho _ => exact ho

/-- Lookups in an array that register nodes, in a context that was in some world before. -/
structure Registers {α : Type} (c : ContextId) (r : ObjectRef) (length : Nat) (E : Engine) (w : World)
    (give : Node → α) (site : Nat → String) (read : Nat → Operation α) : Prop where
  registered : ∀ i < length, ∀ ss v, c.Took .node w ss v → (∃ m, v.heap.arrayLength? (.object r) = some m) →
    (c.sight .node r i E v).2.hostCalls = v.hostCalls →
      Registered c w ss give (site i) (c.sight .node r i E v) (read i E v)

/-- The conversion to a list of proxies registers nodes. -/
theorem listStep_registers (hE : E.Obeys (World.KeepsUnless Crossing.isHost c)) (hr : (w.context c).Ready)
    (r : ObjectRef) (length : Nat) : c.Registers r length E w id Conversion.elementSite
      (Conversion.listStep c (c.toProxy .node) r) where
  registered i _ ss v htook _ he := by
    have hsame := lookUp_outlook (c := c) (k := .node) (r := r) i E v
    have hstep : (Conversion.listStep c (c.toProxy .node) r i E v).2.outlook =
        (c.sight .node r i E v).2.outlook := by
      rw [listStep_eq, located_eq]
      exact hsame
    rcases step_cases hE hr htook i ((World.tally_of_outlook hstep).trans he) with
      ⟨s, handle, v₁, hsight, hrun, hnow, hget⟩ | ⟨stop, v₁, hsight, hrun, hnow⟩
    · rw [hrun] at hstep
      rw [hrun, ← Prod.mk.eta (p := c.sight .node r i E v), hsight]
      exact .found hstep hnow hget
    · rw [hrun, hsight]
      exact .stopped rfl hnow

/-- Two worlds of one outlook: one where elements were looked at, and one where they were registered. -/
structure LookupPair (c : ContextId) (r : ObjectRef) (w w₀ : World) (ss : List Sighting) (w₁ v₁ : World) :
    Prop where
  outlook : v₁.outlook = w₁.outlook
  looked : c.Took .node w [] w₁
  took : c.Took .node w₀ ss v₁
  array : ∃ m, w₁.heap.arrayLength? (.object r) = some m

section LookupPair

variable {α : Type} {give : Node → α} {site : Nat → String} {read : Nat → Operation α}
  (hf : c.NumbersBy f w) (hf₀ : c.NumbersBy f w₀)

include hf hf₀

/-- The next lookup finds what is found by looking. -/
theorem LookupPair.step (h : c.LookupPair r w w₀ ss w₁ v₁)
    (hread : c.Registers r length (Engine.ofFuel n room) w₀ give site read) (hi : i < length)
    (he : (c.sight .node r i (Engine.ofFuel n room) w₁).2.hostCalls = w₁.hostCalls) :
    Registered c w₀ ss give (site i) (c.sight .node r i (Engine.ofFuel n room) w₁)
        (read i (Engine.ofFuel n room) v₁) ∧
      c.Took .node w [] (c.sight .node r i (Engine.ofFuel n room) w₁).2 ∧
      ∃ m, (c.sight .node r i (Engine.ofFuel n room) w₁).2.heap.arrayLength? (.object r) = some m := by
  have hE := Engine.ofFuel_keepsUnless c n room
  have hheap : v₁.heap = w₁.heap := congrArg Outlook.heap h.outlook
  obtain ⟨hresult, hsame⟩ :=
    (h.looked.numbersBy hf).sight_again (h.took.numbersBy hf₀) h.outlook i he
  have he' : (c.sight .node r i (Engine.ofFuel n room) v₁).2.hostCalls = v₁.hostCalls := by
    rw [World.hostCalls, World.tally_of_outlook hsame, World.hostCalls, World.tally_of_outlook h.outlook]
    exact he
  have hregistered := hread.registered i hi ss v₁ h.took (by rw [hheap]; exact h.array) he'
  refine ⟨?_, h.looked.of_keepsUnless (sight_keepsUnless hE i w₁) he, (sight_heap i w₁).isArray h.array⟩
  rcases hlook : c.sight .node r i (Engine.ofFuel n room) w₁ with ⟨stop | s, w₂⟩ <;>
    rcases hlook' : c.sight .node r i (Engine.ofFuel n room) v₁ with ⟨stop' | s', v₂⟩ <;>
    rw [hlook, hlook'] at hresult hsame <;> cases hresult <;> rw [hlook'] at hregistered <;>
    generalize read i (Engine.ofFuel n room) v₁ = run at hregistered ⊢
  · cases hregistered with
    | stopped ho ht => exact .stopped (ho.trans hsame) ht
  · cases hregistered with
    | found ho ht hget => exact .found (ho.trans hsame) ht hget

/-- As many lookups as there were looks go well, and their proxies stand for what was found. -/
theorem Registers.visited (hread : c.Registers r length (Engine.ofFuel n room) w₀ give site read)
    (hstart : c.LookupPair r w w₀ [] w w₀) (hv : Visited (c.sight .node r) (Engine.ofFuel n room) w ss w₁)
    (hlength : ss.length ≤ length) (he : w₁.hostCalls = w.hostCalls) :
    ∃ ps v₁, Visited read (Engine.ofFuel n room) w₀ (ps.map give) v₁ ∧ c.LookupPair r w w₀ ss w₁ v₁ ∧
      c.Stand .node (w₀.context c) ss ps := by
  induction hv with
  | start => exact ⟨[], w₀, .start, hstart, rfl, nofun⟩
  | @next ss w₁ s w₂ hv hlook ih =>
    rw [List.length_append, List.length_singleton] at hlength
    obtain ⟨hbefore, hlast⟩ := World.hostCalls_parts (hv.monotone fun i => (sight_nonRetaining i).calls n room)
      ((sight_nonRetaining ss.length).calls_le hlook) he
    obtain ⟨ps, v₁, hvisited, hpair, hstand⟩ := ih (by omega) hbefore
    obtain ⟨hregistered, hlooked, harray⟩ := hpair.step hf hf₀ hread (i := ss.length) (by omega)
      (by rw [hlook]; exact hlast)
    rw [hlook] at hregistered hlooked harray
    have hps : (ps.map give).length = ss.length := by rw [List.length_map, hstand.length]
    rcases hrun : read ss.length (Engine.ofFuel n room) v₁ with ⟨result, v₂⟩
    rw [hrun] at hregistered
    cases hregistered with
    | @found _ _ _ handle ho htook hget =>
      refine ⟨ps ++ [⟨c, s.key, handle⟩], v₂, ?_, ⟨ho, hlooked, htook, harray⟩, hstand.concat hget⟩
      rw [List.map_append]
      exact hvisited.next (hps ▸ hrun)

/-- Where looking reaches all elements, so do the lookups. -/
theorem Registers.done (hread : c.Registers r length (Engine.ofFuel n room) w₀ give site read)
    (hstart : c.LookupPair r w w₀ [] w w₀) (hv : Visited (c.sight .node r) (Engine.ofFuel n room) w ss w₁)
    (hlength : ss.length = length) (he : w₁.hostCalls = w.hostCalls) :
    ∃ ps v₁, collect read (List.range length) (Engine.ofFuel n room) w₀ = (.ok (ps.map give), v₁) ∧
      c.LookupPair r w w₀ ss w₁ v₁ ∧ c.Stand .node (w₀.context c) ss ps := by
  obtain ⟨ps, v₁, hvisited, hpair, hstand⟩ := hread.visited hf hf₀ hstart hv hlength.le he
  refine ⟨ps, v₁, (collect_visits read _ w₀ length).unique (.done hvisited ?_), hpair, hstand⟩
  rw [List.length_map, hstand.length, hlength]

/-- Where looking stops, so do the lookups. -/
theorem Registers.stopped (hread : c.Registers r length (Engine.ofFuel n room) w₀ give site read)
    (hstart : c.LookupPair r w w₀ [] w w₀) (hv : Visited (c.sight .node r) (Engine.ofFuel n room) w ss w₁)
    (hlength : ss.length < length) {stop : Stop SessionError}
    (hstop : c.sight .node r ss.length (Engine.ofFuel n room) w₁ = (.error stop, w₂))
    (he : w₂.hostCalls = w.hostCalls) :
    ∃ v₂, collect read (List.range length) (Engine.ofFuel n room) w₀ =
        (.error (stop.map (.located (site ss.length))), v₂) ∧
      v₂.outlook = w₂.outlook ∧ c.Took .node w₀ ss v₂ := by
  obtain ⟨hbefore, hlast⟩ := World.hostCalls_parts (hv.monotone fun i => (sight_nonRetaining i).calls n room)
    ((sight_nonRetaining ss.length).calls_le hstop) he
  obtain ⟨ps, v₁, hvisited, hpair, hstand⟩ := hread.visited hf hf₀ hstart hv hlength.le hbefore
  obtain ⟨hregistered, -⟩ := hpair.step hf hf₀ hread hlength (by rw [hstop]; exact hlast)
  rw [hstop] at hregistered
  have hps : (ps.map give).length = ss.length := by rw [List.length_map, hstand.length]
  rcases hrun : read ss.length (Engine.ofFuel n room) v₁ with ⟨result, v₂⟩
  rw [hrun] at hregistered
  cases hregistered with
  | stopped ho htook =>
    refine ⟨v₂, (collect_visits read _ w₀ length).unique ?_, ho, htook⟩
    exact .stopped hvisited (hps.trans_lt hlength) (hps ▸ hrun)

end LookupPair

end ContextId

end ProxySession
