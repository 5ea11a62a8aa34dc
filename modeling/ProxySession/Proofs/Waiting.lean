import ProxySession.Proofs.Escapes

/-!
# How long a failure waits

A failure waits in its context from the moment at which it is recorded until the context settles, which
it does at the end of each call that succeeds and of each operation that fails. A host function without
steps has no operations, so it settles nothing.
-/

namespace ProxySession

open Effect

variable {w w' w'' : World} {c : ContextId} {φ : HostFailure}

namespace World

theorem Calm.waits (h : w.Calm w') (hφ : φ ∈ (w.context c).pending) : φ ∈ (w'.context c).pending := by
  have hp : (w'.context c).pending = (w.context c).pending := congrArg Prod.fst (h.books.books c)
  exact hp ▸ hφ

theorem settled_waits {d : ContextId} (hd : d ≠ c) (hφ : φ ∈ (w.context c).pending) :
    φ ∈ ((w.settled d).context c).pending := by
  rw [settled_context, if_neg fun h => hd h.1]
  exact hφ

variable {d : ContextId} {e : SessionError} {r : ObjectRef}

theorem record_waits (hv : d.index < w.contexts.size) (hφ : φ ∈ (w.context c).pending) :
    φ ∈ ((w.recordHostFailure (w.nextFailure d e r)).context c).pending := by
  rw [record_context e r hv]
  split
  · next heq =>
    subst heq
    exact List.mem_append_left _ hφ
  · exact hφ

theorem nextFailure_waits (hv : d.index < w.contexts.size) :
    w.nextFailure d e r ∈ ((w.recordHostFailure (w.nextFailure d e r)).context d).pending := by
  rw [record_context e r hv, if_pos rfl]
  exact List.mem_append_right _ (List.mem_singleton_self _)

end World

/-! ## Until a context settles -/

section

variable {F F' : Multiset Reference}

/-- What waits goes on waiting, unless its context settles. -/
theorem Transition.waits (h : Transition (F, w) (F', w')) (hs : w.Sound F)
    (hφ : φ ∈ (w.context φ.context).pending) :
    φ ∈ (w'.context φ.context).pending ∨ F' = F ∧ w' = w.settled φ.context := by
  cases h with
  | move _ hc => exact .inl (hc.waits hφ)
  | settle d =>
    by_cases hd : d = φ.context
    · exact .inr ⟨rfl, by rw [hd]⟩
    · exact .inl (World.settled_waits hd hφ)
  | fail e r hc _ => exact .inl (World.record_waits (Holdings.valid_of_owned hs hc) hφ)

theorem Transition.waits_new (h : Transition (F, w) (F', w')) (hs : w.Sound F) (hnew : φ ∉ w.hostFailures)
    (hφ : φ ∈ w'.hostFailures) : φ ∈ (w'.context φ.context).pending := by
  cases h with
  | move _ hc => exact absurd (hc.failures ▸ hφ) hnew
  | settle d => exact absurd hφ hnew
  | fail e r hc _ =>
    rcases Array.mem_push.1 hφ with hφ | rfl
    · exact absurd hφ hnew
    · exact World.nextFailure_waits (Holdings.valid_of_owned hs hc)

/-- A failure of a run of transitions waits at its end, unless its context settled meanwhile. -/
theorem Transitions.waits_or_settled (hrun : Transitions F w F' w') (hs : w.Sound F)
    (hnew : φ ∉ w.hostFailures) (hφ : φ ∈ w'.hostFailures) :
    φ ∈ (w'.context φ.context).pending ∨ ∃ F₁ w₁, Transitions F w F₁ w₁ ∧
      φ ∈ (w₁.context φ.context).pending ∧ Transitions F₁ (w₁.settled φ.context) F' w' := by
  have hsteps {p : Multiset Reference × World} (hp : Relation.ReflTransGen Transition (F, w) p)
      (hφ : φ ∈ p.2.hostFailures) :
      φ ∈ (p.2.context φ.context).pending ∨ ∃ F₁ w₁, Transitions F w F₁ w₁ ∧
        φ ∈ (w₁.context φ.context).pending ∧ Transitions F₁ (w₁.settled φ.context) p.1 p.2 := by
    -- Along the run: before it is on record there is nothing to show, and the transition that records it
    -- lets it wait; after that it waits until a transition is its context's end of waiting.
    induction hp with
    | refl => exact absurd hφ hnew
    | @tail p q hbefore htransition ih =>
      have hsound : p.2.Sound p.1 := ((Transitions.moves hbefore).sound_later hs).1
      by_cases hold : φ ∈ p.2.hostFailures
      · rcases ih hold with hwaits | ⟨F₁, w₁, hrun₁, hwaits, hrun₂⟩
        · rcases htransition.waits hsound hwaits with hwaits' | ⟨hF, hw⟩
          · exact .inl hwaits'
          · refine .inr ⟨p.1, p.2, hbefore, hwaits, ?_⟩
            rw [hF, hw]
        · exact .inr ⟨F₁, w₁, hrun₁, hwaits, hrun₂.tail htransition⟩
      · exact .inl (htransition.waits_new hsound hold hφ)
  exact hsteps hrun hφ

end

namespace Session

variable {heap : Heap}

theorem Passes.waits_or_settled (h : Passes heap w w') (hnew : φ ∉ w.hostFailures)
    (hφ : φ ∈ w'.hostFailures) :
    φ ∈ (w'.context φ.context).pending ∨ ∃ w₁, Passes heap w w₁ ∧
      φ ∈ (w₁.context φ.context).pending ∧ Passes heap (w₁.settled φ.context) w' := by
  obtain ⟨F, F', hrun, hrun'⟩ := h
  have hs := (hrun.moves.sound_later Holdings.empty_sound).1
  rcases hrun'.waits_or_settled hs hnew hφ with hwaits | ⟨F₁, w₁, hrun₁, hwaits, hrun₂⟩
  · exact .inl hwaits
  · have hsettled : Transitions F₁ w₁ F₁ (w₁.settled φ.context) := .single (.settle φ.context)
    exact .inr ⟨w₁, ⟨F, F₁, hrun, hrun₁⟩, hwaits, F₁, F', (hrun.trans hrun₁).trans hsettled, hrun₂⟩

end Session

/-! ## Host functions without steps -/

/-- A body that only answers or fails. -/
def HostBody.isStepless : HostBody → Bool
  | .step _ _ => false
  | .done | .fail _ | .answer _ | .answerArgument _ => true

def HostBehaviour.isStepless : HostBehaviour → Bool
  | .run _ body => body.isStepless
  | .collect _ => true

namespace World

/-- No host function has steps. -/
def Stepless (w : World) : Prop := ∀ f ∈ w.hostFunctions, f.behaviour.isStepless = true

/-- All failures that waited or that are new wait. -/
structure Gathers (w w' : World) : Prop where
  hosts : w'.hostFunctions = w.hostFunctions
  waiting : ∀ c φ, φ ∈ (w.context c).pending → φ ∈ (w'.context c).pending
  raised : ∀ φ ∈ w'.hostFailures, φ ∉ w.hostFailures → φ ∈ (w'.context φ.context).pending

theorem Gathers.trans (h₁ : w.Gathers w') (h₂ : w'.Gathers w'') : w.Gathers w'' where
  hosts := h₂.hosts.trans h₁.hosts
  waiting c φ hφ := h₂.waiting c φ (h₁.waiting c φ hφ)
  raised φ hφ hnew := by
    by_cases hold : φ ∈ w'.hostFailures
    · exact h₂.waiting φ.context φ (h₁.raised φ hold hnew)
    · exact h₂.raised φ hφ hold

theorem Calm.gathers (h : w.Calm w') (hh : w'.hostFunctions = w.hostFunctions) : w.Gathers w' where
  hosts := hh
  waiting _ _ hφ := h.waits hφ
  raised _ hφ hnew := absurd (h.failures ▸ hφ) hnew

theorem Aside.gathers (h : w.Aside w') : w.Gathers w' :=
  h.rests.calm.gathers (by rw [← h.rest])

theorem Indoors.gathers (h : w.Indoors w') (hb : w.toHoldings.SameBooks w'.toHoldings) :
    w.Gathers w' :=
  (h.calm hb).gathers (by rw [← h.rest])

theorem record_gathers {e : SessionError} {r : ObjectRef} (hv : c.index < w.contexts.size) :
    w.Gathers (w.recordHostFailure (w.nextFailure c e r)) where
  hosts := rfl
  waiting _ _ hφ := record_waits hv hφ
  raised φ hφ hnew := by
    rcases Array.mem_push.1 hφ with hφ | rfl
    · exact absurd hφ hnew
    · exact nextFailure_waits hv

/-- To gather failures while no host function has steps is a regime. -/
theorem gathering : Regime fun w w' => w.Stepless → w.Gathers w' where
  aside h _ := h.gathers
  trans h₁ h₂ hs := by
    have hg := h₁ hs
    exact hg.trans (h₂ (by rw [Stepless, hg.hosts]; exact hs))

end World

theorem namedItem_still {α : Type} (name : String) (part : Item → Option α) (E : Engine)
    (w : World) : (namedItem name part E w).2 = w := by
  rw [namedItem, world_bind]
  rcases (w.lookup name).bind part with _ | a <;> rfl

theorem Argument.value_aside (E : Engine) (w : World) :
    (a : Argument) → w.Aside (a.value? E w).2
  | .value _ => .refl w
  | .symbol _ => .ofHeap (.of_objects rfl)
  | .variable name => by
    rw [value?, namedItem_still]
    exact .refl w

/-- A host function without steps changes no holdings and raises no failure by itself. -/
theorem HostBehaviour.perform_stepless {b : HostBehaviour} (hb : b.isStepless = true)
    (arguments : List Value) (E : Engine) (w : World) :
    (b.perform arguments E w).2.toHoldings = w.toHoldings ∧
      w.Gathers (b.perform arguments E w).2 := by
  have hrests {w' : World} (hw : w.Rests w') (hh : w'.hostFunctions = w.hostFunctions) :
      w'.toHoldings = w.toHoldings ∧ w.Gathers w' := ⟨hw.holdings, hw.calm.gathers hh⟩
  cases b with
  | collect collection =>
    exact hrests (.visit collection arguments w) (w.visit_hostFunctions collection arguments)
  | run name body =>
    cases body with
    | step s rest => cases hb
    | answer v =>
      have hcross : w.Aside (w.cross (.host name (arguments.map w.showValue))) := .cross w _
      have haside := hcross.trans (v.value_aside E _)
      exact ⟨haside.rests.holdings, haside.gathers⟩
    | _ => exact hrests (World.Aside.cross w _).rests rfl

theorem World.valid_of_referred (h : (w.context c).references ≠ 0) : c.index < w.contexts.size := by
  by_contra hn
  have hd : w.context c = default := getD_of_size_le (Nat.le_of_not_lt hn)
  rw [hd] at h
  exact h rfl

theorem throwHostFailure_gathers {e : SessionError} {E : Engine}
    (hE : E.Obeys fun w w' => w.Stepless → w.Gathers w') (hv : c.index < w.contexts.size)
    (hs : w.Stepless) : w.Gathers (throwHostFailure c e E w).2 := by
  obtain ⟨r, w₁, hw, _, hrun⟩ := throwHostFailure_run c e E w
  have hv₁ : c.index < w₁.contexts.size := by
    rw [← hw.rest]
    exact hv
  have hrecord : w.Gathers (w₁.recordHostFailure (w₁.nextFailure c e r)) :=
    hw.gathers.trans (World.record_gathers hv₁)
  rw [hrun]
  refine hrecord.trans ((throwTagged_foreignActs _).foreign _ World.gathering E hE _ ?_)
  rw [World.Stepless, hrecord.hosts]
  exact hs

theorem HostFunction.attempt_gathers {f : HostFunction} (hf : f.behaviour.isStepless = true)
    {E : Engine} (hE : E.Obeys fun w w' => w.Stepless → w.Gathers w') (arguments : List Value)
    (hv : f.context.index < w.contexts.size) (hs : w.Stepless) :
    w.Gathers ((do
      match ← (f.behaviour.perform arguments).attempt with
      | .ok v => pure v
      | .error e => throwHostFailure f.context e : Eval Value) E w).2 := by
  obtain ⟨hholdings, hperform⟩ := HostBehaviour.perform_stepless hf arguments E w
  rw [bind_eq, attempt]
  rcases hp : f.behaviour.perform arguments E w with ⟨stop | v, w₁⟩
  · rw [hp] at hholdings hperform
    cases stop with
    | failed e =>
      have hv₁ : f.context.index < w₁.contexts.size := by
        rw [congrArg Holdings.contexts hholdings]
        exact hv
      refine hperform.trans (throwHostFailure_gathers hE hv₁ ?_)
      rw [World.Stepless, hperform.hosts]
      exact hs
    | exhausted => exact hperform
    | senseless => exact hperform
  · rw [hp] at hperform
    exact hperform

theorem HostFunction.enter_gathers {f : HostFunction} (hf : f.behaviour.isStepless = true)
    {E : Engine} (hE : E.Obeys fun w w' => w.Stepless → w.Gathers w') (arguments : List Value)
    (hs : w.Stepless) : w.Gathers (f.enter arguments E w).2 := by
  change w.Gathers ((if (w.context f.context).references = 0 then _ else _ : Eval Value) E w).2
  split
  · have hgone : ((newHostError LifetimeError.contextDropped.message >>= fun r =>
        fail (.object r) : Eval Value)).ForeignActs :=
      .bind (newHostError_foreignActs _) fun _ => .fail _
    exact hgone.foreign _ World.gathering E hE w hs
  · next hr =>
    have hhold : w.Gathers (World.holdContext f.context w) :=
      (World.take_tacit (.context f.context) w).indoors.gathers
        ((World.take_becomes (.context f.context) w).holdings ▸
          (Holdings.SameStanding.take _ _).books)
    have hv : f.context.index < (World.holdContext f.context w).contexts.size := by
      rw [World.holdContext, World.updateContext, Array.size_modify]
      exact World.valid_of_referred hr
    have hs₀ : (World.holdContext f.context w).Stepless := by
      rw [World.Stepless, hhold.hosts]
      exact hs
    have hbody := hhold.trans (f.attempt_gathers hf hE arguments hv hs₀)
    have hdrop (w₁ : World) : w₁.Gathers (World.dropContext f.context w₁) :=
      (World.giveBack_indoors (.context f.context) w₁).gathers
        ((World.giveBack_becomes (.context f.context) w₁).holdings ▸ .giveBack _ _)
    exact hbody.trans (hdrop _)

theorem HostId.enter_gathers {E : Engine} (hE : E.Obeys fun w w' => w.Stepless → w.Gathers w')
    (h : HostId) (arguments : List Value) (hs : w.Stepless) :
    w.Gathers (h.enter arguments E w).2 := by
  rw [HostId.enter, world_bind]
  rcases hf : w.hostFunctions[h.index]? with _ | f
  · exact (World.Aside.refl w).gathers
  · exact f.enter_gathers (hs f (Array.mem_of_getElem? hf)) hE arguments hs

/-- Foreign code that can call only host functions without steps ends with all failures of its run
waiting. -/
theorem Effect.Foreign.gathers {ε α : Type} {x : Effect ε α} (hx : x.Foreign) (fuel room : Nat)
    (hs : w.Stepless) : w.Gathers (x (Engine.ofFuel fuel room) w).2 :=
  hx _ World.gathering _
    (Engine.ofFuel_obeys World.gathering (fun _ _ => World.Calm.gathers ⟨.refl _, rfl, .refl _⟩ rfl)
      (fun _ hE h arguments _ hs => h.enter_gathers hE arguments hs) fuel room) w hs

end ProxySession
