import ProxySession.Proofs.HandleAccess
import ProxySession.Proofs.LazyLists

/-!
# Steps to a parent

What is found at the parent of an object does not depend on what the context retains, and neither does
anything else that an accessor reads. So an accessor goes on beside a run that only looks: it finds the same
there, and the context takes note of the node that it found.
-/

namespace ProxySession

open Effect

variable {α β : Type} {c : ContextId} {f : Value} {n room m : Nat} {w w' w₁ w₂ v₁ : World}
  {E : Engine} {ss : List Sighting} {s : Sighting} {o : ObjectRef} {p : Node}

namespace Context

/-- The context after it took note of some nodes, with other books and another count of references. -/
def annotated (cx : Context) (ss : List Sighting) (failures : List HostFailure) (tag m : Nat) : Context :=
  ((cx.seesAll .node ss).booked failures tag).counted m

theorem annotated_get {cx : Context} (hr : cx.Ready) {id : HandleId} {v : Value}
    (h : cx.custodian.get id = .ok v) (ss : List Sighting) (failures : List HostFailure) (tag m : Nat) :
    (cx.annotated ss failures tag m).custodian.get id = .ok v := by
  obtain ⟨_, hslot⟩ := Custodian.get_ok h
  exact Custodian.get_of_holds (hr.seesAll .node ss).isOpen (seesAll_slot hslot .node ss)

end Context

/-! ## Nodes and their objects -/

/-- A node that stands for an object in a context: it has the entry under the key of the object, and its
handle leads there. -/
structure Node.For (c : ContextId) (cx : Context) (s : Sighting) (p : Node) : Prop where
  context : p.context = c
  key : p.key = s.key
  entry : (cx.identities .node).get? s.key = some p.handle
  object : cx.custodian.get p.handle = .ok (.object s.object)

theorem Node.For.later {cx : Context} (h : Node.For c (cx.seesAll .node ss) s p) (hr : cx.Ready)
    (ss' : List Sighting) : Node.For c (cx.seesAll .node (ss ++ ss')) s p where
  context := h.context
  key := h.key
  entry := by
    rw [Context.seesAll_append]
    exact Context.seesAll_get?_of_some h.entry ss'
  object := by
    obtain ⟨ho, hslot⟩ := Custodian.get_ok h.object
    rw [Context.seesAll_append]
    exact Custodian.get_of_holds ((hr.seesAll .node ss).seesAll .node ss').isOpen
      (Context.seesAll_slot hslot .node ss')

namespace ContextId

/-! ## Beside a world without notes -/

/-- Two worlds in which foreign code finds the same. In the one, the context has taken note of some nodes
since it was in a former world, and has some number of references. -/
structure Beside (c : ContextId) (w : World) (ss : List Sighting) (m : Nat) (w₁ v₁ : World) : Prop where
  outlook : v₁.outlook = w₁.outlook
  looked : c.Took .node w [] w₁
  took : ∃ failures tag, v₁.context c = (w.context c).annotated ss failures tag m
  alive : m ≠ 0

namespace Beside

theorem refl (h : (w.context c).references ≠ 0) : c.Beside w [] (w.context c).references w w :=
  ⟨rfl, .refl .., ⟨_, _, rfl⟩, h⟩

theorem references (h : c.Beside w ss m w₁ v₁) : (v₁.context c).references = m := by
  obtain ⟨_, _, hcontext⟩ := h.took
  rw [hcontext]
  rfl

theorem present (h : c.Beside w ss m w₁ v₁) : (v₁.context c).references ≠ 0 := by
  rw [h.references]
  exact h.alive

theorem ready (h : c.Beside w ss m w₁ v₁) (hr : (w.context c).Ready) : (v₁.context c).Ready := by
  refine ⟨?_, h.present⟩
  obtain ⟨_, _, hcontext⟩ := h.took
  rw [hcontext]
  exact (hr.seesAll .node ss).isOpen

theorem calls (h : c.Beside w ss m w₁ v₁) : v₁.hostCalls = w₁.hostCalls :=
  World.tally_of_outlook h.outlook

theorem hold (h : c.Beside w ss m w₁ v₁) : c.Beside w ss (m + 1) w₁ (World.holdContext c v₁) where
  outlook := (World.outlook_holdContext h.present).trans h.outlook
  looked := h.looked
  took := by
    obtain ⟨failures, tag, hcontext⟩ := h.took
    refine ⟨failures, tag, ?_⟩
    rw [World.holdContext_context h.present, h.references, hcontext]
    rfl
  alive := Nat.succ_ne_zero m

theorem drop (h : c.Beside w ss (m + 1) w₁ v₁) (hm : m ≠ 0) :
    c.Beside w ss m w₁ (World.dropContext c v₁) where
  outlook := (World.outlook_dropContext (by rw [h.references]; omega)).trans h.outlook
  looked := h.looked
  took := by
    have hreferences := h.references
    obtain ⟨failures, tag, hcontext⟩ := h.took
    refine ⟨failures, tag, ?_⟩
    rw [World.dropContext_of_shared (by omega), World.lowered_context (by omega), hreferences, hcontext]
    rfl
  alive := hm

end Beside

/-! ## Operations that find the same -/

/-- Beside a run without notes, an operation ends as it does there, as long as foreign code does not call
back. -/
structure Alike (c : ContextId) (w : World) (E : Engine) (x : Operation α) : Prop where
  nonRetaining : x.NonRetaining
  again : ∀ ⦃ss m w₁ v₁⦄, c.Beside w ss m w₁ v₁ → (x E w₁).2.hostCalls = w₁.hostCalls →
    (x E v₁).1 = (x E w₁).1 ∧ c.Beside w ss m (x E w₁).2 (x E v₁).2

namespace Alike

variable {x : Operation α} {g : α → Operation β}

theorem of_repeatable (hx : x.Repeatable) (hm : x.NonRetaining) : c.Alike w (Engine.ofFuel n room) x where
  nonRetaining := hm
  again ss m w₁ v₁ hb he := by
    have hunless (u : World) := hm _ (World.KeepsUnless.contextRegime Crossing.isHost c) _
      (Engine.ofFuel_keepsUnless c n room) u
    obtain ⟨hresult, houtlook⟩ := (hx _ (Engine.ofFuel_repeatable n room)).again hb.outlook he
    have he' : (x (Engine.ofFuel n room) v₁).2.hostCalls = v₁.hostCalls :=
      (World.tally_of_outlook houtlook).trans (he.trans hb.calls.symm)
    refine ⟨hresult, houtlook, hb.looked.of_keepsUnless (hunless w₁) he, ?_, hb.alive⟩
    obtain ⟨failures, tag, hcontext⟩ := hb.took
    obtain ⟨failures', tag', hspared⟩ := ((hunless v₁).keepsContext he').context
    exact ⟨failures', tag', by rw [hspared, hcontext]; rfl⟩

theorem bind (hx : c.Alike w (Engine.ofFuel n room) x)
    (hg : ∀ a, c.Alike w (Engine.ofFuel n room) (g a)) : c.Alike w (Engine.ofFuel n room) (x >>= g) where
  nonRetaining := hx.nonRetaining.bind fun a => (hg a).nonRetaining
  again ss m w₁ v₁ hb he := by
    rcases hrun : x (Engine.ofFuel n room) w₁ with ⟨stop | a, w₂⟩
    · rw [bind_of_error hrun] at he ⊢
      obtain ⟨hresult, hb'⟩ := hx.again hb (by rw [hrun]; exact he)
      rw [hrun] at hresult hb'
      have hrun' : x (Engine.ofFuel n room) v₁ = (.error stop, (x (Engine.ofFuel n room) v₁).2) :=
        Prod.ext hresult rfl
      rw [bind_of_error hrun']
      exact ⟨rfl, hb'⟩
    · rw [bind_of_ok hrun] at he ⊢
      obtain ⟨hfirst, hrest⟩ := World.hostCalls_parts (hx.nonRetaining.calls_le hrun)
        ((hg a).nonRetaining.calls n room w₂) he
      obtain ⟨hresult, hb'⟩ := hx.again hb (by rw [hrun]; exact hfirst)
      rw [hrun] at hresult hb'
      have hrun' : x (Engine.ofFuel n room) v₁ = (.ok a, (x (Engine.ofFuel n room) v₁).2) :=
        Prod.ext hresult rfl
      rw [bind_of_ok hrun']
      exact (hg a).again hb' hrest

/-- What notes leave as it is can be read from the context. -/
theorem knows (know : Context → β) {g : β → Operation α} (hm : ∀ b, (g b).NonRetaining)
    (hknow : ∀ ss failures tag m, know ((w.context c).annotated ss failures tag m) = know (w.context c))
    (hg : c.Alike w E (g (know (w.context c)))) :
    c.Alike w E (world >>= fun u => g (know (u.context c))) where
  nonRetaining R hR E hE u := hm (know (u.context c)) R hR E hE u
  again ss m w₁ v₁ hb he := by
    have hsame : know (v₁.context c) = know (w.context c) := by
      obtain ⟨failures, tag, hcontext⟩ := hb.took
      rw [hcontext, hknow]
    have hlooked : know (w₁.context c) = know (w.context c) := by
      obtain ⟨failures, tag, hcontext⟩ := hb.looked
      rw [hcontext]
      exact hknow [] failures tag (w.context c).references
    have hfirst : (world >>= fun u => g (know (u.context c))) E w₁ = g (know (w.context c)) E w₁ := by
      rw [world_bind, hlooked]
    have hsecond : (world >>= fun u => g (know (u.context c))) E v₁ = g (know (w.context c)) E v₁ := by
      rw [world_bind, hsame]
    rw [hfirst] at he ⊢
    rw [hsecond]
    exact hg.again hb he

end Alike

theorem property_repeatable (o : ObjectRef) (name : String) : (c.property o name).Repeatable :=
  c.reading_repeatable (Eval.getProperty_foreignActs o _).repeatable

theorem property_alike (o : ObjectRef) (name : String) :
    c.Alike w (Engine.ofFuel n room) (c.property o name) :=
  .of_repeatable (property_repeatable o name) (c.property_nonRetaining o name)

theorem pure_alike (a : α) : c.Alike w (Engine.ofFuel n room) (pure a) :=
  .of_repeatable (ForeignActs.pure a).repeatable (ForeignActs.pure a).nonRetaining

/-- A node has the key that it has without notes. -/
theorem nodeKey_alike (hf : c.NumbersBy f w) (o : ObjectRef) :
    c.Alike w (Engine.ofFuel n room) (c.nodeKey o) := by
  have hkey : c.Alike w (Engine.ofFuel n room) (c.keyThrough f o) :=
    .of_repeatable (keyThrough_repeatable f o) (by unfold keyThrough Conversion.required; grind)
  refine ⟨c.nodeKey_nonRetaining o, fun ss m w₁ v₁ hb he => ?_⟩
  have hnow : c.NumbersBy f v₁ := by
    refine ⟨hb.ready hf.ready, ?_⟩
    obtain ⟨failures, tag, hcontext⟩ := hb.took
    have hnode : (v₁.context c).nodeId = (w.context c).nodeId := by
      rw [hcontext]
      exact Context.seesAll_nodeId .node (w.context c) ss
    rw [hnode, hcontext]
    exact Context.annotated_get hf.ready hf.node ..
  rw [(hb.looked.numbersBy hf).nodeKey_eq] at he ⊢
  rw [hnow.nodeKey_eq]
  exact hkey.again hb he

/-! ## Accesses -/

/-- An accessor does its work on the object that its handle holds. -/
theorem Beside.access {id : HandleId} (hb : c.Beside w ss m w₁ v₁)
    (hid : ((w.context c).seesAll .node ss).custodian.get id = .ok (.object o)) (kind name : String)
    (work : ObjectRef → Operation α) (E : Engine) :
    (⟨c, id, kind⟩ : ProxyCore).access name work E v₁ =
      ((work o E (World.holdContext c v₁)).1.mapError (Stop.map (.located (kind ++ "." ++ name))),
        World.dropContext c (work o E (World.holdContext c v₁)).2) := by
  refine ProxyCore.access_of_ok (ProxyCore.objectAt_of_get hb.present ?_) work E
  obtain ⟨failures, tag, hcontext⟩ := hb.took
  rw [hcontext]
  exact hid

theorem Alike.access {id : HandleId} (hb : c.Beside w ss m w₁ v₁)
    (hid : ((w.context c).seesAll .node ss).custodian.get id = .ok (.object o)) (kind name : String)
    (work : ObjectRef → Operation α) (hw : c.Alike w E (work o))
    (he : (work o E w₁).2.hostCalls = w₁.hostCalls) :
    ((⟨c, id, kind⟩ : ProxyCore).access name work E v₁).1 =
        (work o E w₁).1.mapError (Stop.map (.located (kind ++ "." ++ name))) ∧
      c.Beside w ss m (work o E w₁).2 ((⟨c, id, kind⟩ : ProxyCore).access name work E v₁).2 := by
  obtain ⟨hresult, hb'⟩ := hw.again hb.hold he
  rw [hb.access hid kind name work, hresult]
  exact ⟨rfl, hb'.drop hb.alive⟩

/-! ## The parent of an object -/

/-- What is found at the parent of an object, if it has one: the object there, with its key. -/
def parentSight (c : ContextId) (o : ObjectRef) : Operation (Option Sighting) := do
  let v ← c.property o "parent"
  if v.isAbsent then
    pure none
  else
    let p ← Operation.object "Node" v
    let key ← c.nodeKey p
    pure (some ⟨p, key⟩)

theorem parentSight_nonRetaining (o : ObjectRef) : (c.parentSight o).NonRetaining := by
  unfold parentSight
  grind

theorem parentSight_alike (hf : c.NumbersBy f w) (o : ObjectRef) :
    c.Alike w (Engine.ofFuel n room) (c.parentSight o) := by
  refine (property_alike o "parent").bind fun v => ?_
  by_cases hv : v.isAbsent = true
  · rw [if_pos hv]
    exact pure_alike none
  · rw [if_neg hv]
    refine .bind (.of_repeatable ?_ ?_) fun p => (nodeKey_alike hf p).bind fun key => pure_alike _
    · exact (Operation.object_foreignActs "Node" v).repeatable
    · exact (Operation.object_foreignActs "Node" v).nonRetaining

/-- What becomes of the object that was found. -/
def settleSome (c : ContextId) : Option Sighting → Operation (Option Node)
  | none => pure none
  | some s => some <$> c.settle .node s.object s.key

/-- The accessor of the parent settles which node stands for what is found there. -/
theorem parentSight_settle (c : ContextId) (o : ObjectRef) :
    (c.property o "parent" >>= (c.toProxy .node).nullable) = c.parentSight o >>= c.settleSome := by
  rw [parentSight, bind_assoc]
  congr 1
  funext v
  rw [Conversion.nullable]
  split
  · rfl
  · cases v with
    | object p =>
      have hassoc := bind_assoc (c.nodeKey p) (fun key => pure (some (⟨p, key⟩ : Sighting))) c.settleSome
      refine Eq.trans ?_ hassoc.symm
      exact bind_assoc (c.nodeKey p) (fun key => c.settle .node p key) fun node => pure (some node)
    | _ => rfl

theorem Beside.settle (hb : c.Beside w ss m w₁ v₁) (hr : (w.context c).Ready) (s : Sighting)
    (E : Engine) : ∃ handle v₂, c.settle .node s.object s.key E v₁ = (.ok ⟨c, s.key, handle⟩, v₂) ∧
      c.Beside w (ss ++ [s]) m w₁ v₂ ∧
      (((w.context c).seesAll .node (ss ++ [s])).identities .node).get? s.key = some handle := by
  have houtlook := settle_unseen (c := c) (k := .node) s.object s.key E v₁
  obtain ⟨handle, v₂, hrun, hcontext, hget⟩ := settle_sees (k := .node) (hb.ready hr) s E
  obtain ⟨failures, tag, hregistered⟩ := hb.took
  rw [hregistered, Context.annotated, Context.sees_counted, Context.sees_booked,
    ← Context.seesAll_concat] at hcontext hget
  rw [hrun] at houtlook
  refine ⟨handle, v₂, hrun, ⟨houtlook.trans hb.outlook, hb.looked, ⟨failures, tag, hcontext⟩, hb.alive⟩, ?_⟩
  rwa [Context.counted_identities, Context.booked_identities] at hget

/-- The accessor of the parent beside a look at the parent of an object: it finds nothing there, or takes note
of the node that it finds, or stops as the look does. -/
inductive Ascends (c : ContextId) (w : World) (ss : List Sighting) (m : Nat) :
    Except (Stop SessionError) (Option Sighting) × World →
      Except (Stop SessionError) (Option Node) × World → Prop
  | top {w₁ v₁ : World} : c.Beside w ss m w₁ v₁ → Ascends c w ss m (.ok none, w₁) (.ok none, v₁)
  | parent {s : Sighting} {handle : HandleId} {w₁ v₁ : World} : c.Beside w (ss ++ [s]) m w₁ v₁ →
      (((w.context c).seesAll .node (ss ++ [s])).identities .node).get? s.key = some handle →
      Ascends c w ss m (.ok (some s), w₁) (.ok (some ⟨c, s.key, handle⟩), v₁)
  | stopped {stop : Stop SessionError} {w₁ v₁ : World} : c.Beside w ss m w₁ v₁ →
      Ascends c w ss m (.error stop, w₁) (.error (stop.map (.located "Node.parent")), v₁)

theorem Beside.parent (hf : c.NumbersBy f w) (hb : c.Beside w ss m w₁ v₁)
    (hp : Node.For c ((w.context c).seesAll .node ss) s p) (n room : Nat)
    (he : (c.parentSight s.object (Engine.ofFuel n room) w₁).2.hostCalls = w₁.hostCalls) :
    c.Ascends w ss m (c.parentSight s.object (Engine.ofFuel n room) w₁)
      (p.parent (Engine.ofFuel n room) v₁) := by
  obtain ⟨rfl, -, -, hobject⟩ := hp
  obtain ⟨hresult, hb'⟩ := (parentSight_alike hf s.object).again hb.hold he
  have hrun := hb.access hobject "Node" "parent"
    (fun r => p.context.property r "parent" >>= (p.context.toProxy .node).nullable) (Engine.ofFuel n room)
  rw [parentSight_settle] at hrun
  rw [show p.parent (Engine.ofFuel n room) v₁ = _ from hrun]
  rcases hlook : p.context.parentSight s.object (Engine.ofFuel n room) w₁ with ⟨stop | found, w₂⟩ <;>
    rcases hlook' : p.context.parentSight s.object (Engine.ofFuel n room) (World.holdContext p.context v₁)
      with ⟨stop' | found', v₂⟩ <;>
    rw [hlook, hlook'] at hresult hb' <;> cases hresult
  · rw [bind_of_error hlook']
    exact .stopped (hb'.drop hb.alive)
  · rw [bind_of_ok hlook']
    cases found with
    | none => exact .top (hb'.drop hb.alive)
    | some s =>
      obtain ⟨handle, v₃, hsettle, hb₃, hget⟩ := hb'.settle hf.ready s (Engine.ofFuel n room)
      rw [settleSome, map_eq, hsettle]
      exact .parent (hb₃.drop hb.alive) hget

/-- The same for a look that is known to have ended so. -/
theorem Beside.ascends (hf : c.NumbersBy f w) (hb : c.Beside w ss m w₁ v₁)
    (hp : Node.For c ((w.context c).seesAll .node ss) s p)
    {look : Except (Stop SessionError) (Option Sighting)}
    (hlook : c.parentSight s.object (Engine.ofFuel n room) w₁ = (look, w₂)) (he : w₂.hostCalls = w₁.hostCalls) :
    ∃ found v₂, p.parent (Engine.ofFuel n room) v₁ = (found, v₂) ∧ c.Ascends w ss m (look, w₂) (found, v₂) := by
  have hstep := hb.parent hf hp n room (by rw [hlook]; exact he)
  rw [hlook] at hstep
  exact ⟨_, _, rfl, hstep⟩

end ContextId

end ProxySession
