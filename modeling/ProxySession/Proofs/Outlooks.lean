import ProxySession.Proofs.HostFailures
import ProxySession.Proofs.UntouchedContexts

/-!
# What foreign code finds

Foreign operations find the heap, the functions of the host with what they have collected, the record of
crossings, and of each context whether it is there and which failures wait in it. They run alike from any
two worlds with the same outlook, whatever else the host holds, as long as they call no host function that
runs steps. An effect is `Repeatable` if this is so for any engine whose functions are.
-/

namespace ProxySession

/-- What foreign operations find in a world. -/
structure Outlook where
  heap : Heap
  numberings : Array Numbering
  hostFunctions : Array HostFunction
  collections : Array (List Value)
  crossings : Array Crossing
  present : ContextId → Prop
  pending : ContextId → List HostFailure

namespace World

variable {w w' : World} {c : ContextId}

def outlook (w : World) : Outlook where
  heap := w.heap
  numberings := w.numberings
  hostFunctions := w.hostFunctions
  collections := w.collections
  crossings := w.crossings
  present c := (w.context c).references ≠ 0
  pending c := (w.context c).pending

theorem tally_of_outlook {p : Crossing → Bool} (h : w'.outlook = w.outlook) :
    w'.tally p = w.tally p := by
  have hcrossings : w'.crossings = w.crossings := congrArg Outlook.crossings h
  rw [tally, tally, hcrossings]

/-- What changes of the contexts neither presence nor failures is out of sight. -/
theorem outlook_of_contexts {h : Holdings}
    (hpresent : ∀ c, (h.context c).references ≠ 0 ↔ (w.context c).references ≠ 0)
    (hpending : ∀ c, (h.context c).pending = (w.context c).pending) :
    outlook { w with toHoldings := h } = w.outlook := by
  rw [outlook, outlook, Outlook.mk.injEq]
  exact ⟨rfl, rfl, rfl, rfl, rfl, funext fun c => propext (hpresent c), funext hpending⟩

theorem outlook_updateContext (c : ContextId) {f : Context → Context}
    (hpresent : ∀ cx, (f cx).references = cx.references) (hpending : ∀ cx, (f cx).pending = cx.pending) :
    (w.updateContext c f).outlook = w.outlook :=
  outlook_of_contexts (h := w.toHoldings.modifyContext c f)
    (fun d => by rw [Holdings.same_modifyContext Context.references c w.toHoldings hpresent d])
    (Holdings.same_modifyContext Context.pending c w.toHoldings hpending)

theorem outlook_settled (c : ContextId) (w : World) : (w.settled c).outlook =
    { w.outlook with pending := fun d => if c = d then [] else w.outlook.pending d } := by
  rw [outlook, Outlook.mk.injEq]
  refine ⟨rfl, rfl, rfl, rfl, rfl, funext fun d => ?_, funext fun d => ?_⟩
  · rw [settled_context]
    split <;> rfl
  · split
    · next hd =>
      subst hd
      exact settled_pending c w
    · next hd => rw [settled_context, if_neg fun hc => hd hc.1]; rfl

theorem outlook_holdContext (h : (w.context c).references ≠ 0) :
    (holdContext c w).outlook = w.outlook := by
  refine outlook_of_contexts (h := w.toHoldings.take (.context c)) (fun d => ?_) fun d => ?_
  · rw [Holdings.take, Holdings.context_modifyContext]
    split
    · next hd =>
      obtain ⟨rfl, _⟩ := hd
      exact ⟨fun _ => h, fun _ => Nat.succ_ne_zero _⟩
    · rfl
  · exact Holdings.same_modifyContext Context.pending c w.toHoldings
      (f := fun cx => { cx with references := cx.references + 1 }) (fun _ => rfl) d

theorem holdContext_context (h : (w.context c).references ≠ 0) : (holdContext c w).context c =
    { w.context c with references := (w.context c).references + 1 } := by
  have hv : c.index < w.contexts.size := Holdings.valid_of_count (r := .context c) h
  exact (Holdings.context_modifyContext c c _ w.toHoldings).trans (if_pos ⟨rfl, hv⟩)

theorem lowered_context (h : (w.context c).references ≠ 0) :
    (w.updateContext c fun cx => { cx with references := cx.references - 1 }).context c =
      { w.context c with references := (w.context c).references - 1 } := by
  have hv : c.index < w.contexts.size := Holdings.valid_of_count (r := .context c) h
  exact (Holdings.context_modifyContext c c _ w.toHoldings).trans (if_pos ⟨rfl, hv⟩)

/-- A context that is held more than once loses nothing but a reference. -/
theorem dropContext_of_shared (h : 1 < (w.context c).references) : dropContext c w =
    w.updateContext c fun cx => { cx with references := cx.references - 1 } := by
  have hleft := congrArg Context.references (lowered_context (w := w) (c := c) (by omega))
  rw [dropContext]
  exact if_neg fun hc => by
    have hnone := hc.1
    rw [hleft] at hnone
    dsimp only at hnone
    omega

theorem outlook_dropContext (h : 1 < (w.context c).references) :
    (dropContext c w).outlook = w.outlook := by
  rw [dropContext_of_shared h]
  refine outlook_of_contexts (h := w.toHoldings.modifyContext c fun cx =>
    { cx with references := cx.references - 1 }) (fun d => ?_) fun d => ?_
  · rw [Holdings.context_modifyContext]
    split
    · next hd =>
      obtain ⟨rfl, _⟩ := hd
      exact ⟨fun _ => by omega, fun _ => by dsimp only; omega⟩
    · rfl
  · exact Holdings.same_modifyContext Context.pending c w.toHoldings
      (f := fun cx => { cx with references := cx.references - 1 }) (fun _ => rfl) d

end World

/-! ## Runs that are alike -/

/-- From worlds of one outlook the run ends alike, unless it calls a host function that runs steps, which it
does in both then. -/
structure Repeats {α : Type} (run : World → α × World) : Prop where
  calls : ∀ w, w.hostCalls ≤ (run w).2.hostCalls
  alike : ∀ w w' : World, w'.outlook = w.outlook →
    (run w').1 = (run w).1 ∧ (run w').2.outlook = (run w).2.outlook ∨
      w.hostCalls < (run w).2.hostCalls ∧ w'.hostCalls < (run w').2.hostCalls

namespace Repeats

variable {α : Type} {run : World → α × World} {w w' : World}

/-- A run that neither looks behind the outlook nor records a crossing. -/
theorem of_outlook (hcrossings : ∀ w : World, (run w).2.crossings = w.crossings)
    (h : ∀ w w' : World, w'.outlook = w.outlook →
      (run w').1 = (run w).1 ∧ (run w').2.outlook = (run w).2.outlook) : Repeats run where
  calls w := by rw [World.hostCalls, World.hostCalls, World.tally, World.tally, hcrossings]
  alike w w' ho := .inl (h w w' ho)

/-- A run in which no such function is called ends as it does from any world of the same outlook. -/
theorem again (h : Repeats run) (ho : w'.outlook = w.outlook)
    (he : (run w).2.hostCalls = w.hostCalls) :
    (run w').1 = (run w).1 ∧ (run w').2.outlook = (run w).2.outlook := by
  rcases h.alike w w' ho with h | ⟨h, _⟩
  · exact h
  · omega

end Repeats

def Engine.Repeatable (E : Engine) : Prop :=
  ∀ room f receiver arguments, Repeats (E.run room f receiver arguments)

namespace Effect

variable {ε δ α β γ : Type}

def Repeatable (x : Effect ε α) : Prop := ∀ E : Engine, E.Repeatable → Repeats (x E)

variable {x : Effect ε α} {f : α → Effect ε β}

namespace Repeatable

@[grind ←] theorem bind (hx : x.Repeatable) (hf : ∀ a, (f a).Repeatable) : (x >>= f).Repeatable := by
  intro E hE
  have hfirst := hx E hE
  have hcalls (w : World) : (x E w).2.hostCalls ≤ ((x >>= f) E w).2.hostCalls := by
    rw [bind_eq]
    rcases x E w with ⟨_ | a, w₁⟩
    · exact Nat.le_refl _
    · exact (hf a E hE).calls w₁
  refine ⟨fun w => Nat.le_trans (hfirst.calls w) (hcalls w), fun w w' ho => ?_⟩
  rcases hfirst.alike w w' ho with ⟨hresult, houtlook⟩ | ⟨hw, hw'⟩
  · have hbefore := hfirst.calls w
    have hbefore' := hfirst.calls w'
    rw [bind_eq, bind_eq]
    rcases hrun : x E w with ⟨_ | a, w₁⟩ <;> rcases hrun' : x E w' with ⟨_ | a', w₁'⟩ <;>
      rw [hrun, hrun'] at hresult houtlook <;> cases hresult
    · exact .inl ⟨rfl, houtlook⟩
    · rw [hrun] at hbefore
      rw [hrun'] at hbefore'
      refine ((hf a E hE).alike w₁ w₁' houtlook).imp_right fun ⟨h, h'⟩ => ?_
      exact ⟨Nat.lt_of_le_of_lt hbefore h, Nat.lt_of_le_of_lt hbefore' h'⟩
  · exact .inr ⟨Nat.lt_of_lt_of_le hw (hcalls w), Nat.lt_of_lt_of_le hw' (hcalls w')⟩

theorem read {f : World → Effect ε α} (he : ∀ w w', w'.outlook = w.outlook → f w' = f w)
    (hf : ∀ w, (f w).Repeatable) : (Effect.world >>= f).Repeatable := by
  intro E hE
  refine ⟨fun w => (hf w E hE).calls w, fun w w' ho => ?_⟩
  have h := (hf w E hE).alike w w' ho
  change (f w' E w').1 = _ ∧ (f w' E w').2.outlook = _ ∨ _ ∧ _ < (f w' E w').2.hostCalls
  rw [he w w' ho]
  exact h

@[grind ←] theorem attempt (hx : x.Repeatable) : (x.attempt : Effect δ (Except ε α)).Repeatable := by
  intro E hE
  have hw (w : World) : ((x.attempt : Effect δ (Except ε α)) E w).2 = (x E w).2 := by
    rw [Effect.attempt]
    rcases x E w with ⟨s | a, w₁⟩
    · cases s <;> rfl
    · rfl
  refine ⟨fun w => ?_, fun w w' ho => ?_⟩
  · rw [hw]
    exact (hx E hE).calls w
  · rw [hw, hw]
    refine ((hx E hE).alike w w' ho).imp_left fun h => ⟨?_, h.2⟩
    have hresult := h.1
    rw [Effect.attempt, Effect.attempt]
    rcases hrun : x E w with ⟨s | a, w₁⟩ <;> rcases hrun' : x E w' with ⟨s' | a', w₁'⟩ <;>
      rw [hrun, hrun'] at hresult <;> cases hresult
    · cases s <;> rfl
    · rfl

end Repeatable

/-- What is made of foreign acts finds nothing but the outlook of its world. -/
@[grind ←] theorem ForeignActs.repeatable (hx : x.ForeignActs) : x.Repeatable := by
  induction hx with
  | pure a => exact fun _ _ => .of_outlook (fun _ => rfl) fun _ _ ho => ⟨rfl, ho⟩
  | bind _ _ ihx ihf => exact ihx.bind ihf
  | read he _ ih => exact .read (fun w w' ho => he w w' (congrArg Outlook.heap ho)) ih
  | @act ε α g f hg _ =>
    intro E _
    refine .of_outlook (fun w => ?_) fun w w' ho => ?_
    · change (g w).2.crossings = w.crossings
      rw [hg]
    · change (.ok (g w').1 : Except (Stop ε) α) = .ok (g w).1 ∧ (g w').2.outlook = (g w).2.outlook
      have hheap : w'.heap = w.heap := congrArg Outlook.heap ho
      rw [hg w, hg w', hheap]
      exact ⟨rfl, congrArg (fun o : Outlook => { o with heap := (f w.heap).2 }) ho⟩
  | @cross ε f he =>
    intro E _
    refine ⟨fun w => ?_, fun w w' ho => .inl ⟨rfl, ?_⟩⟩
    · exact World.tally_le (w.record_cross (f w))
    · change (w'.cross (f w')).outlook = (w.cross (f w)).outlook
      rw [he w w' (congrArg Outlook.heap ho)]
      exact congrArg (fun o : Outlook => { o with crossings := o.crossings.push (f w) }) ho
  | fail e => exact fun _ _ => .of_outlook (fun _ => rfl) fun _ _ ho => ⟨rfl, ho⟩
  | exhausted => exact fun _ _ => .of_outlook (fun _ => rfl) fun _ _ ho => ⟨rfl, ho⟩
  | room => exact fun _ _ => .of_outlook (fun _ => rfl) fun _ _ ho => ⟨rfl, ho⟩
  | taking size _ ih => exact fun E hE => ih { E with room := E.room - size } hE
  | attempt _ ih => exact ih.attempt
  | run c receiver arguments => exact fun E hE => hE E.room c receiver arguments

namespace Repeatable

@[grind ←] theorem handle {handler : ε → Effect δ α} (hx : x.Repeatable) (hh : ∀ e, (handler e).Repeatable) :
    (x.handle handler).Repeatable := by
  unfold Effect.handle
  grind

@[grind ←] theorem located {y : Effect SessionError α} (site : String) (hy : y.Repeatable) :
    (y.located site).Repeatable := by
  unfold Effect.located
  grind

end Repeatable

/-! ## What is out of sight -/

/-- An effect that leaves the outlook as it is. -/
def Unseen (x : Effect ε α) : Prop := ∀ E w, (x E w).2.outlook = w.outlook

theorem Unseen.bind {x : Effect ε α} {f : α → Effect ε β} (hx : x.Unseen) (hf : ∀ a, (f a).Unseen) :
    (x >>= f).Unseen := by
  intro E w
  have h := hx E w
  rw [bind_eq]
  rcases hr : x E w with ⟨s | a, w₁⟩
  · rw [hr] at h
    exact h
  · rw [hr] at h
    exact (hf a E w₁).trans h

end Effect

namespace ContextId

open Effect

variable {c : ContextId} {k : ProxyKind}

/-- What a context retains and how it names it is out of sight. -/
theorem retain_unseen (v : Value) : (c.retain v).Unseen := by
  intro E w
  cases h : (w.context c).custodian.closed with
  | true => rw [retain_of_closed v E h]
  | false =>
    have hretain : (w.context c).custodian.retainHandle v = .ok (w.nextHandle c,
        { (w.context c).custodian with slots := (w.context c).custodian.slots.push (some v) }) := by
      rw [Custodian.retainHandle, if_neg (by simp [h])]
      rfl
    simp only [retain, bind_eq, world, hretain]
    exact World.outlook_updateContext c (fun _ => rfl) fun _ => rfl

theorem intern_unseen (key : Int64) {create : Operation HandleId} (hcreate : create.Unseen) :
    ((MapLens.ofContext c k).intern key create).Unseen := by
  intro E w
  cases h : ((w.context c).identities k).get? key with
  | some handle =>
    rw [intern_present create E h]
    rfl
  | none =>
    have hload : ((MapLens.ofContext c k).load w).get? key = none := h
    simp only [MapLens.intern, bind_eq, world, hload]
    have hmade := hcreate E w
    rcases hrun : create E w with ⟨s | made, w₁⟩
    · rw [hrun] at hmade
      exact hmade
    · rw [hrun] at hmade
      refine Eq.trans ?_ hmade
      exact World.outlook_updateContext (w := (MapLens.ofContext c k).logLookup _ key w₁) c
        (fun cx => Context.setIdentities_references cx k _) fun cx => by cases k <;> rfl

theorem settle_unseen (r : ObjectRef) (key : Int64) : (c.settle k r key).Unseen :=
  (intern_unseen key (retain_unseen _)).bind fun _ => fun _ _ => rfl

end ContextId

end ProxySession
