import ProxySession.Proofs.Commands
import ProxySession.Proofs.ForeignBodies
import ProxySession.Session.Report

/-!
# Steps as progress

A step stores the answer of its command or gives it up, so it owns nothing at its end. Nor does any
function that foreign code can enter, on any level of nesting.
-/

namespace ProxySession

open Effect

variable {kept : List Reference} {α : Type}

theorem store_transfers (name : String) (item : Item) :
    (change (World.store name item) : Operation Unit).Transfers kept item.owned fun _ => 0 := by
  intro w _ _ F _
  change Progress (item.owned + F) w (0 + F) (World.store name item w)
  rw [zero_add]
  exact Progress.store name item w F

theorem drop_transfers (item : Item) :
    (change (World.drop item) : Operation Unit).Transfers kept item.owned fun _ => 0 := by
  intro w _ _ F _
  change Progress (item.owned + F) w (0 + F) (World.drop item w)
  rw [zero_add]
  exact Progress.drop item w F

/-- A step stores what its command gives, or gives it up. -/
@[grind ←] theorem Step.run_neutral (s : Step) : s.run.Neutral kept := by
  obtain ⟨command, context, target⟩ := s
  have hs : (Step.mk command context target).run.Gives kept fun _ => 0 := by
    unfold Step.run
    refine Transfers.marked (Transfers.bind (command.run_answers context target) fun item => ?_)
    cases target with
    | some name =>
      exact Transfers.bind (store_transfers name item) fun _ =>
        Gives.bind Neutral.world fun _ => Gives.pure rfl
    | none =>
      exact Transfers.ofWorld fun w =>
        Transfers.bind (drop_transfers item) (fun _ => Gives.pure rfl) w
  exact hs.neutral fun _ => rfl

/-! ## Host functions -/

theorem storeArguments_progress (arguments : List Value) (w : World) (F : Multiset Reference) :
    Progress F w F (storeArguments arguments w) := by
  rw [storeArguments]
  generalize arguments.zipIdx = numbered
  induction numbered generalizing w with
  | nil => exact .refl
  | cons first rest ih =>
    have hs := Progress.store (argumentName first.2) (.foreign first.1) w F
    have hz : ((Item.foreign first.1).references : Multiset Reference) = 0 := by
      simp [Item.references]
    rw [hz, zero_add] at hs
    exact hs.trans (ih _)

@[grind ←] theorem HostBody.run_neutral (arguments : List Value) :
    (body : HostBody) → (body.run arguments).Neutral kept
  | .done => Neutral.pure _
  | .step s rest => by
    unfold HostBody.run
    exact Neutral.bind (fun _ _ F w _ => storeArguments_progress arguments w F) fun _ =>
      Neutral.bind s.run_neutral fun shown =>
        Neutral.bind (Eval.cross_foreign fun _ => .step shown).neutral fun _ => rest.run_neutral arguments
  | .fail e => Neutral.fail e
  | .answer v => v.value_neutral
  | .answerArgument _ => Neutral.pure _

@[grind ←] theorem HostBehaviour.perform_neutral (arguments : List Value) (b : HostBehaviour) :
    (b.perform arguments).Neutral kept := by
  cases b with
  | run name body =>
    exact Neutral.bind (Eval.cross_foreign _).neutral fun _ => body.run_neutral arguments
  | collect collection =>
    exact Neutral.bind (Neutral.change (.visit collection arguments)) fun _ => Neutral.pure _

@[grind ←] theorem newHostError_foreignActs (message : String) : (newHostError message).ForeignActs := by
  unfold newHostError
  grind

/-- Marks the exception of a failure with the failure's tag and throws it. -/
def throwTagged (φ : HostFailure) : Eval Value := do
  Eval.setProperty φ.exception ContextId.tagProperty (.ofBinary64 (.ofInt φ.tag))
  fail (.object φ.exception)

theorem throwTagged_foreignActs (φ : HostFailure) : (throwTagged φ).ForeignActs := by
  unfold throwTagged
  grind

/-- The failure that a context records next for an error and an exception. -/
def World.nextFailure (c : ContextId) (e : SessionError) (r : ObjectRef) (w : World) : HostFailure :=
  ⟨c, (w.context c).lastTag + 1, e, r⟩

/-- A new error object stands for a failure from the moment at which it is recorded. -/
theorem throwHostFailure_run (c : ContextId) (e : SessionError) (E : Engine) (w : World) :
    ∃ r w₁, w.Aside w₁ ∧ w₁.heap.isError (.object r) = true ∧
      throwHostFailure c e E w = throwTagged (w₁.nextFailure c e r) E
        (w₁.recordHostFailure (w₁.nextFailure c e r)) := by
  refine ⟨_, _, ?_, ?_, rfl⟩
  · exact .ofHeap (.alloc w.heap _)
  · simp [Heap.isError, Heap.object]

@[grind ←] theorem throwHostFailure_neutral {c : ContextId} (hc : .context c ∈ kept)
    (e : SessionError) : (throwHostFailure c e).Neutral kept := by
  intro E hE F w hF
  obtain ⟨r, w₁, hw, hr, hrun⟩ := throwHostFailure_run c e E w
  have hbefore : Progress F w F w₁ := .rests hw.rests
  have hrecord : Progress F w₁ F (w₁.recordHostFailure (w₁.nextFailure c e r)) :=
    .fail e r (hF _ hc) hr
  have hthrow : (throwTagged (w₁.nextFailure c e r)).Neutral kept := (throwTagged_foreignActs _).neutral
  rw [hrun]
  exact (hbefore.trans hrecord).trans (hthrow E hE F _ hF)

@[grind ←] theorem HostFunction.enter_neutral (f : HostFunction) (arguments : List Value) :
    (f.enter arguments).Neutral kept := by
  have hg : (f.enter arguments).Gives kept fun _ => 0 := by
    refine Transfers.ofWorld fun w => ?_
    split
    · exact (Neutral.gives (by grind) fun _ => rfl : Gives kept _ _) w
    · next h =>
      refine f.context.keeping_gives h (Neutral.gives ?_ fun _ => rfl)
      grind
  exact hg.neutral fun _ => rfl

@[grind ←] theorem HostId.enter_neutral (h : HostId) (arguments : List Value) :
    (h.enter arguments).Neutral kept := by
  unfold enter
  grind

/-! ## Levels of nesting -/

/-- What is not a function of the host is made of foreign acts. -/
theorem Callable.enter_foreignActs {c : Callable} (hc : ∀ h, c ≠ .host h) (receiver : Value)
    (arguments : List Value) : (c.enter receiver arguments).ForeignActs := by
  cases c with
  | host h => exact absurd rfl (hc h)
  | _ =>
    unfold enter
    grind

/-- Every engine with a bounded nesting keeps to a regime that the host functions keep to. -/
theorem Engine.ofFuel_obeys {R : World → World → Prop} (hR : Regime R) (hmark : ∀ w, R w w.mark)
    (hhost : ∀ E : Engine, E.Obeys R → ∀ (h : HostId) arguments w, R w (h.enter arguments E w).2)
    (n room : Nat) : (Engine.ofFuel n room).Obeys R := by
  -- What runs on one level only asks that the engine of the level below obeys.
  induction n generalizing room with
  | zero =>
    intro _ _ _ _ _
    exact hR.refl _
  | succ n ih =>
    intro room' c receiver arguments w
    have henter : R w.mark (c.enter receiver arguments (Engine.ofFuel n room') w.mark).2 := by
      by_cases hc : ∃ h, c = .host h
      · obtain ⟨h, rfl⟩ := hc
        exact hhost _ (ih room') h arguments w.mark
      · have hacts := c.enter_foreignActs (fun h heq => hc ⟨h, heq⟩) receiver arguments
        exact hacts.foreign R hR _ (ih room') w.mark
    exact hR.trans (hR.trans (hmark w) henter) (hmark _)

/-- Every engine with a bounded nesting moves the session. -/
theorem Engine.ofFuel_sound (n room : Nat) : (Engine.ofFuel n room).Sound := by
  have hobeys : (Engine.ofFuel n room).Obeys fun w w' => ∀ F, Progress F w F w' := by
    refine ofFuel_obeys Progress.regime (fun _ _ => .mark) (fun E hE h arguments w F => ?_) n room
    have hsound : E.Sound := fun room c receiver arguments F w => hE room c receiver arguments w F
    have henter : (h.enter arguments).Neutral [] := h.enter_neutral arguments
    exact henter E hsound F w (by simp)
  exact fun room' c receiver arguments F w => hobeys room' c receiver arguments w F

end ProxySession
