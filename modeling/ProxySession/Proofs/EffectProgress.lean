import ProxySession.Proofs.Advances
import ProxySession.Proofs.ForeignActs

/-!
# Effects as progress

`Effect.Transfers kept taken given x` says that `x` makes progress: it starts as the owner of
`taken`, ends as the owner of `given a` if its result is `a`, and of nothing if it stops. Meanwhile
others go on owning `kept`. A `Neutral` effect owns nothing at either end; its rules and the lemmas
on single effects are tagged, so `grind` follows the text of a definition that is made of them.
-/

namespace ProxySession

/-- All that an engine runs moves the session. -/
def Engine.Sound (E : Engine) : Prop :=
  ∀ room c receiver arguments F w, Progress F w F (E.run room c receiver arguments w).2

namespace Effect

variable {ε δ α β γ : Type}

/-- What an effect owns at its end. -/
def owned (given : α → Multiset Reference) : Except (Stop ε) α → Multiset Reference
  | .ok a => given a
  | .error _ => 0

/-- `Transfers` from one world. -/
def TransfersAt (w : World) (kept : List Reference) (taken : Multiset Reference)
    (given : α → Multiset Reference) (x : Effect ε α) : Prop :=
  ∀ E : Engine, E.Sound → ∀ F : Multiset Reference, (∀ r ∈ kept, r ∈ F) →
    Progress (taken + F) w (owned given (x E w).1 + F) (x E w).2

def Transfers (kept : List Reference) (taken : Multiset Reference) (given : α → Multiset Reference)
    (x : Effect ε α) : Prop :=
  ∀ w, x.TransfersAt w kept taken given

/-- An effect that owns nothing before it ends. -/
abbrev Gives (kept : List Reference) (given : α → Multiset Reference) (x : Effect ε α) : Prop :=
  x.Transfers kept 0 given

def Neutral (kept : List Reference) (x : Effect ε α) : Prop :=
  ∀ E : Engine, E.Sound → ∀ F w, (∀ r ∈ kept, r ∈ F) → Progress F w F (x E w).2

variable {kept : List Reference} {taken : Multiset Reference} {given : α → Multiset Reference}
  {given' : β → Multiset Reference} {x : Effect ε α} {f : α → Effect ε β} {w : World}

theorem Neutral.gives (h : x.Neutral kept) (hg : ∀ a, given a = 0) : x.Gives kept given := by
  intro w E hE F hF
  have ho : owned given (x E w).1 = 0 := by
    cases (x E w).1 with
    | ok a => exact hg a
    | error s => rfl
  rw [ho, zero_add]
  exact h E hE F w hF

theorem Neutral.gives_nothing (h : x.Neutral kept) : x.Gives kept fun _ => 0 :=
  h.gives fun _ => rfl

theorem Gives.neutral (h : x.Gives kept given) (hg : ∀ a, given a = 0) : x.Neutral kept := by
  intro E hE F w hF
  have hm := h w E hE F hF
  have ho : owned given (x E w).1 = 0 := by
    cases (x E w).1 with
    | ok a => exact hg a
    | error s => rfl
  rwa [ho, zero_add] at hm

/-! ## Sequences -/

theorem bind_eq (x : Effect ε α) (f : α → Effect ε β) (E : Engine) (w : World) :
    (x >>= f) E w = match x E w with
      | (.ok a, w) => f a E w
      | (.error stop, w) => (.error stop, w) := rfl

theorem TransfersAt.bind (hx : x.TransfersAt w kept taken given)
    (hf : ∀ a, (f a).Transfers kept (given a) given') :
    (x >>= f).TransfersAt w kept taken given' := by
  intro E hE F hF
  have h := hx E hE F hF
  rw [bind_eq]
  rcases hr : x E w with ⟨_ | a, w'⟩
  · rw [hr] at h
    exact h
  · rw [hr] at h
    exact h.trans (hf a w' E hE F hF)

theorem Transfers.bind (hx : x.Transfers kept taken given)
    (hf : ∀ a, (f a).Transfers kept (given a) given') : (x >>= f).Transfers kept taken given' :=
  fun w => (hx w).bind hf

/-- The world as it is at the start of what reads it. -/
theorem Transfers.ofWorld {f : World → Effect ε β} (h : ∀ w, (f w).TransfersAt w kept taken given') :
    (world >>= f).Transfers kept taken given' := fun w => h w

theorem Transfers.pure (a : α) : (Pure.pure a : Effect ε α).Transfers kept (given a) given :=
  fun _ _ _ _ _ => .refl

theorem Gives.pure {a : α} (h : given a = 0) : (Pure.pure a : Effect ε α).Gives kept given := by
  have hp : (Pure.pure a : Effect ε α).Transfers kept (given a) given := Transfers.pure a
  rwa [h] at hp

theorem Gives.bind (hx : x.Neutral kept) (hf : ∀ a, (f a).Gives kept given') :
    (x >>= f).Gives kept given' :=
  Transfers.bind hx.gives_nothing hf

theorem Gives.map {g : α → β} (hx : x.Gives kept given) (h : ∀ a, given a = given' (g a)) :
    (g <$> x).Gives kept given' :=
  Transfers.bind (f := fun a => Pure.pure (g a)) hx fun a => by
    rw [h a]
    exact Transfers.pure (g a)

theorem Gives.stop {s : Stop ε} (h : ∀ E w, x E w = (.error s, w)) : x.Gives kept given := by
  intro w E _ F _
  rw [h E w]
  exact .refl

theorem Gives.fail (e : ε) : (Effect.fail e : Effect ε α).Gives kept given := .stop fun _ _ => rfl

theorem Gives.senseless : (Effect.senseless : Effect ε α).Gives kept given := .stop fun _ _ => rfl

/-! ## Cleaning up -/

/-- An effect that works for an owner of `taken`, who gives them back when the effect stops. -/
theorem Gives.onStop {cleanup : World → World} (hx : x.Gives kept given)
    (hc : ∀ w F, Progress (taken + F) w F (cleanup w)) :
    (x.onStop cleanup).Transfers kept taken fun a => given a + taken := by
  intro w E hE F hF
  have h := hx w E hE (taken + F) fun r hr => Multiset.mem_add.2 (.inr (hF r hr))
  rw [zero_add] at h
  rw [Effect.onStop]
  rcases hr : x E w with ⟨s | a, w'⟩
  · rw [hr, owned, zero_add] at h
    rw [owned, zero_add]
    exact h.trans (hc w' F)
  · rw [hr, owned] at h
    rw [owned, add_assoc]
    exact h

/-- An effect that works for an owner of `rs`, who gives them back at its end. -/
theorem Gives.eventually (rs : List Reference) {cleanup : World → World}
    (hx : x.Gives (rs ++ kept) given) (hc : ∀ w F, Progress (rs + F) w F (cleanup w)) :
    (x.eventually cleanup).Transfers kept rs given := by
  intro w E hE F hF
  have h := hx w E hE (rs + F) fun r hr => by
    rcases List.mem_append.1 hr with hr | hr
    · exact Multiset.mem_add.2 (.inl hr)
    · exact Multiset.mem_add.2 (.inr (hF r hr))
  rw [zero_add, add_left_comm] at h
  exact h.trans (hc (x E w).2 (owned given (x E w).1 + F))

/-- A change that leaves the holdings alone leaves what is owned. -/
theorem Transfers.change_still {g : World → World}
    (h : ∀ w : World, w.Rests (g w)) :
    (Effect.change g : Effect ε Unit).Transfers kept taken fun _ => taken :=
  fun w _ _ _ _ => .rests (h w)

/-- A result that is owned while a second effect runs, and given up if that stops. -/
theorem Gives.bind_onStop {g : α → Effect ε β} {k : α → β → Effect ε γ}
    {given'' : γ → Multiset Reference} {cleanup : α → World → World} (hx : x.Gives kept given)
    (hg : ∀ a, (g a).Gives kept given') (hc : ∀ a w F, Progress (given a + F) w F (cleanup a w))
    (hk : ∀ a b, (k a b).Transfers kept (given a + given' b) given'') :
    (x >>= fun a => (g a).onStop (cleanup a) >>= k a).Gives kept given'' :=
  Transfers.bind hx fun a =>
    Transfers.bind (Gives.onStop (hg a) (hc a)) fun b => add_comm (given' b) (given a) ▸ hk a b

/-! ## Neutral effects -/

@[grind ←] theorem Neutral.pure (a : α) : (Pure.pure a : Effect ε α).Neutral kept :=
  fun _ _ _ _ _ => .refl

@[grind ←] theorem Neutral.bind (hx : x.Neutral kept) (hf : ∀ a, (f a).Neutral kept) :
    (x >>= f).Neutral kept := by
  have hg : (x >>= f).Gives kept fun _ => 0 :=
    Gives.bind hx fun a => (hf a).gives fun _ => rfl
  exact hg.neutral fun _ => rfl

@[grind ←] theorem Neutral.map (g : α → β) (hx : x.Neutral kept) : (g <$> x).Neutral kept :=
  Neutral.bind hx fun a => Neutral.pure (g a)

@[grind ←] theorem Neutral.world : (Effect.world : Effect ε World).Neutral kept :=
  fun _ _ _ _ _ => .refl

@[grind ←] theorem Neutral.fail (e : ε) : (Effect.fail e : Effect ε α).Neutral kept :=
  fun _ _ _ _ _ => .refl

@[grind ←] theorem Neutral.exhausted : (Effect.exhausted : Effect ε α).Neutral kept :=
  fun _ _ _ _ _ => .refl

@[grind ←] theorem Neutral.senseless : (Effect.senseless : Effect ε α).Neutral kept :=
  fun _ _ _ _ _ => .refl

@[grind ←] theorem Neutral.ofExcept (r : Except ε α) : (Effect.ofExcept r).Neutral kept := by
  cases r with
  | ok a => exact Neutral.pure a
  | error e => exact Neutral.fail e

theorem Neutral.act {g : World → α × World} (h : ∀ w : World, w.Rests (g w).2) :
    (Effect.act g : Effect ε α).Neutral kept :=
  fun _ _ _ w _ => .rests (h w)

theorem Neutral.change {g : World → World} (h : ∀ w : World, w.Rests (g w)) :
    (Effect.change g : Effect ε Unit).Neutral kept :=
  fun _ _ _ w _ => .rests (h w)

/-- Foreign code owns nothing. -/
@[grind ←] theorem Foreign.neutral (h : x.Foreign) : x.Neutral kept := by
  intro E hE F w _
  exact h _ Progress.regime E (fun room c receiver arguments w F => hE room c receiver arguments F w) w F

@[grind ←] theorem ForeignActs.neutral (h : x.ForeignActs) : x.Neutral kept := h.foreign.neutral

theorem Transfers.marked (hx : x.Transfers kept taken given) : x.marked.Transfers kept taken given :=
  fun w E hE F hF =>
    (Progress.mark.trans (hx w.mark E hE F hF)).trans Progress.mark

theorem Transfers.attempt (hx : x.Transfers kept taken given) :
    (x.attempt : Effect δ (Except ε α)).Transfers kept taken fun
      | .ok a => given a
      | .error _ => 0 := by
  intro w E hE F hF
  have h := hx w E hE F hF
  rw [Effect.attempt]
  rcases hr : x E w with ⟨s | a, w'⟩
  · rw [hr] at h
    cases s <;> exact h
  · rw [hr] at h
    exact h

@[grind ←] theorem Neutral.attempt (hx : x.Neutral kept) :
    (x.attempt : Effect δ (Except ε α)).Neutral kept := by
  have ha := Transfers.attempt (δ := δ) hx.gives_nothing
  exact Gives.neutral ha fun r => by cases r <;> rfl

@[grind ←] theorem Neutral.handle {handler : ε → Effect δ α} (hx : x.Neutral kept)
    (hh : ∀ e, (handler e).Neutral kept) : (x.handle handler).Neutral kept := by
  unfold Effect.handle
  grind

theorem Gives.located {y : Effect SessionError α} (site : String) (hy : y.Gives kept given) :
    (y.located site).Gives kept given := by
  refine Transfers.bind hy.attempt fun r => ?_
  cases r with
  | ok a => exact Transfers.pure a
  | error e => exact Gives.fail _

@[grind ←] theorem Neutral.located {y : Effect SessionError α} (site : String)
    (hy : y.Neutral kept) : (y.located site).Neutral kept := by
  unfold Effect.located
  grind

@[grind ←] theorem Neutral.collect {g : γ → Effect ε β} (hg : ∀ c, (g c).Neutral kept)
    (cs : List γ) : (Effect.collect g cs).Neutral kept := by
  induction cs with
  | nil => exact Neutral.pure []
  | cons c rest ih =>
    unfold Effect.collect
    grind

end Effect

end ProxySession
