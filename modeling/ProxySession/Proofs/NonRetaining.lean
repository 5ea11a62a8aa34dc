import ProxySession.Proofs.ForeignCode
import ProxySession.Proofs.EffectProgress
import ProxySession.Session.ForeignCall

/-!
# Effects that retain nothing

What a context does for a foreign operation, beyond what foreign code does by itself, is little: it
forgets the failures that wait, and it is kept alive meanwhile. A `ContextRegime` allows
this, and an effect is `NonRetaining` if it keeps to every such regime that the functions of its engine keep to.
-/

namespace ProxySession

/-- A regime that lets a context settle, and lets an operation keep a context alive. -/
structure ContextRegime (R : World → World → Prop) : Prop extends Regime R where
  settled : ∀ c w, R w (w.settled c)
  keeping : ∀ {c : ContextId} {w w' : World}, (w.context c).references ≠ 0 →
    R (World.holdContext c w) w' → R w (World.dropContext c w')

theorem Progress.contextRegime : ContextRegime fun w w' => ∀ F, Progress F w F w' where
  toRegime := Progress.regime
  settled c _ _ := .settle c
  keeping {c w w'} hr h F := by
    have henter : Progress F w (.context c ::ₘ F) (World.holdContext c w) :=
      .change (.enter hr) (World.take_turns (.context c) w) (.take _ _) (.take _ _)
    exact (henter.trans (h _)).trans (.giveBack (.context c) w')

namespace Effect

variable {ε δ α β γ : Type}

/-- An effect that keeps to whatever context regime its engine keeps to. -/
def NonRetaining (x : Effect ε α) : Prop :=
  ∀ R, ContextRegime R → ∀ E : Engine, E.Obeys R → ∀ w, R w (x E w).2

variable {x : Effect ε α} {f : α → Effect ε β} {kept : List Reference}

@[grind ←] theorem Foreign.nonRetaining (hx : x.Foreign) : x.NonRetaining := fun R hR => hx R hR.toRegime

@[grind ←] theorem ForeignActs.nonRetaining (hx : x.ForeignActs) : x.NonRetaining := hx.foreign.nonRetaining

@[grind ←] theorem NonRetaining.neutral (hx : x.NonRetaining) : x.Neutral kept := fun E hE F w _ =>
  hx _ Progress.contextRegime E (fun room c receiver arguments w F => hE room c receiver arguments F w) w F

namespace NonRetaining

@[grind ←] theorem bind (hx : x.NonRetaining) (hf : ∀ a, (f a).NonRetaining) : (x >>= f).NonRetaining := by
  intro R hR E hE w
  have h := hx R hR E hE w
  rw [bind_eq]
  rcases hr : x E w with ⟨_ | a, w'⟩
  · rw [hr] at h
    exact h
  · rw [hr] at h
    exact hR.trans h (hf a R hR E hE w')

@[grind ←] theorem map (g : α → β) (hx : x.NonRetaining) : (g <$> x).NonRetaining :=
  bind hx fun a => (Foreign.pure (g a)).nonRetaining

@[grind ←] theorem attempt (hx : x.NonRetaining) : (x.attempt : Effect δ (Except ε α)).NonRetaining := by
  intro R hR E hE w
  have h := hx R hR E hE w
  rw [Effect.attempt]
  rcases hr : x E w with ⟨s | a, w'⟩
  · rw [hr] at h
    cases s <;> exact h
  · rw [hr] at h
    exact h

@[grind ←] theorem handle {handler : ε → Effect δ α} (hx : x.NonRetaining)
    (hh : ∀ e, (handler e).NonRetaining) : (x.handle handler).NonRetaining :=
  bind hx.attempt fun
    | .ok a => (ForeignActs.pure a).nonRetaining
    | .error e => hh e

@[grind ←] theorem located {y : Effect SessionError α} (site : String) (hy : y.NonRetaining) :
    (y.located site).NonRetaining :=
  hy.handle fun _ => (ForeignActs.fail _).nonRetaining

@[grind ←] theorem collect {g : γ → Effect ε β} (hg : ∀ c, (g c).NonRetaining) (cs : List γ) :
    (Effect.collect g cs).NonRetaining := by
  induction cs with
  | nil => exact (ForeignActs.pure []).nonRetaining
  | cons c rest ih => exact bind (hg c) fun _ => bind ih fun _ => (ForeignActs.pure _).nonRetaining

end NonRetaining

end Effect

/-! ## Foreign operations of a context -/

open Effect

variable {α : Type}

namespace Operation

@[grind ←] theorem shapeMismatch_foreignActs (expected : String) (v : Value) :
    (shapeMismatch expected v : Operation α).ForeignActs := by
  unfold shapeMismatch
  grind

@[grind ←] theorem object_foreignActs (expected : String) (v : Value) : (object expected v).ForeignActs := by
  unfold object
  grind

@[grind ←] theorem function_foreignActs (v : Value) : (function v).ForeignActs := by
  unfold function
  grind

end Operation

namespace ContextId

variable (c : ContextId)

theorem entering_dropped {x : Operation α} {E : Engine} {w : World}
    (h : (w.context c).references = 0) :
    c.entering x E w = (.error (.failed (.lifetime .contextDropped)), w) := by
  simp only [entering, bind_eq, world, if_pos h]
  rfl

theorem entering_live {x : Operation α} {E : Engine} {w : World}
    (h : (w.context c).references ≠ 0) :
    c.entering x E w =
      ((x E (World.holdContext c w)).1, World.dropContext c (x E (World.holdContext c w)).2) := by
  simp only [entering, bind_eq, world, if_neg h]
  rfl

@[grind ←] theorem entering_nonRetaining {x : Operation α} (hx : x.NonRetaining) :
    (c.entering x).NonRetaining := by
  intro R hR E hE w
  by_cases h : (w.context c).references = 0
  · rw [c.entering_dropped h]
    exact hR.refl w
  · rw [c.entering_live h]
    exact hR.keeping h (hx R hR E hE (World.holdContext c w))

@[grind ←] theorem value_nonRetaining (id : HandleId) : (c.value id).NonRetaining := by
  unfold value
  grind

@[grind ←] theorem object_nonRetaining (id : HandleId) : (c.object id).NonRetaining :=
  NonRetaining.bind (c.value_nonRetaining id) fun v => (Operation.object_foreignActs "object" v).nonRetaining

@[grind ←] theorem function_nonRetaining (id : HandleId) : (c.function id).NonRetaining :=
  NonRetaining.bind (c.value_nonRetaining id) fun v => (Operation.function_foreignActs v).nonRetaining

@[grind ←] theorem takePending_nonRetaining {ε : Type} :
    (c.takePending : Effect ε (List HostFailure)).NonRetaining :=
  fun _ hR _ _ w => hR.settled c w

@[grind ←] theorem thrownTag_foreignActs (thrown : Value) : (thrownTag thrown).ForeignActs := by
  unfold thrownTag
  grind

@[grind ←] theorem recovered_nonRetaining (thrown : Value) : (c.recovered thrown).NonRetaining :=
  NonRetaining.bind c.takePending_nonRetaining fun _ =>
    NonRetaining.bind (thrownTag_foreignActs thrown).nonRetaining fun _ => (ForeignActs.pure _).nonRetaining

@[grind ←] theorem foreignError_nonRetaining (thrown : Value) : (c.foreignError thrown).NonRetaining :=
  NonRetaining.bind (c.recovered_nonRetaining thrown) fun
    | some failure => (ForeignActs.pure failure.error).nonRetaining
    | none => NonRetaining.map _ (Eval.thrownText_foreignActs thrown).nonRetaining

@[grind ←] theorem engineFailure_nonRetaining (e : SessionError) :
    (c.engineFailure e : Operation α).NonRetaining :=
  NonRetaining.bind c.takePending_nonRetaining fun _ => (ForeignActs.fail e).nonRetaining

@[grind ←] theorem reading_nonRetaining {x : Eval α} (hx : x.NonRetaining) : (c.reading x).NonRetaining :=
  hx.handle fun thrown =>
    NonRetaining.bind (c.foreignError_nonRetaining thrown) fun e => (ForeignActs.fail e).nonRetaining

@[grind ←] theorem calling_nonRetaining {x : Eval α} (hx : x.NonRetaining) : (c.calling x).NonRetaining :=
  NonRetaining.bind (c.reading_nonRetaining hx) fun a => NonRetaining.bind c.takePending_nonRetaining fun _ =>
    (ForeignActs.pure a).nonRetaining

@[grind ←] theorem property_nonRetaining (r : ObjectRef) (name : String) : (c.property r name).NonRetaining :=
  c.reading_nonRetaining (Eval.getProperty_foreignActs r _).nonRetaining

@[grind ←] theorem element_nonRetaining (r : ObjectRef) (i : Nat) : (c.element r i).NonRetaining :=
  c.reading_nonRetaining (Eval.getProperty_foreignActs r _).nonRetaining

@[grind ←] theorem callFunction_nonRetaining (f : Value) (arguments : List Value) :
    (c.callFunction f arguments).NonRetaining :=
  c.calling_nonRetaining (Eval.callValue_foreignActs f _ arguments).nonRetaining

@[grind ←] theorem callMethod_nonRetaining (r : ObjectRef) (method : String) (arguments : List Value) :
    (c.callMethod r method arguments).NonRetaining :=
  NonRetaining.bind (c.property_nonRetaining r method) fun v =>
    NonRetaining.bind (Operation.function_foreignActs v).nonRetaining fun f =>
      c.calling_nonRetaining (Eval.callValue_foreignActs f _ arguments).nonRetaining

@[grind ←] theorem get_nonRetaining (r : ObjectRef) (name : String) : (c.get r name).NonRetaining :=
  (c.property_nonRetaining r name).located name

@[grind ←] theorem invoke_nonRetaining (r : ObjectRef) (method : String) (arguments : List Value) :
    (c.invoke r method arguments).NonRetaining :=
  (c.callMethod_nonRetaining r method arguments).located method

end ContextId

end ProxySession
