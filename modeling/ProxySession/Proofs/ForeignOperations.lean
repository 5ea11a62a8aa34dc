import ProxySession.Proofs.Outlooks

/-!
# Foreign operations are repeatable

The foreign operations of a context go by the outlook of the world, and so do the functions of every engine
with a bounded nesting.
-/

namespace ProxySession

open Effect

variable {α : Type}

/-! ## Foreign operations of a context -/

namespace ContextId

variable (c : ContextId)

@[grind ←] theorem takePending_repeatable {ε : Type} :
    (c.takePending : Effect ε (List HostFailure)).Repeatable :=
  fun _ _ => .of_outlook (fun _ => rfl) fun w w' ho => by
    have hpending : (w'.context c).pending = (w.context c).pending :=
      congrFun (congrArg Outlook.pending ho) c
    refine ⟨congrArg Except.ok hpending, ?_⟩
    change (w'.settled c).outlook = (w.settled c).outlook
    rw [World.outlook_settled, World.outlook_settled, ho]

@[grind ←] theorem recovered_repeatable (thrown : Value) : (c.recovered thrown).Repeatable := by
  unfold recovered
  grind

@[grind ←] theorem foreignError_repeatable (thrown : Value) : (c.foreignError thrown).Repeatable := by
  unfold foreignError
  grind

@[grind ←] theorem reading_repeatable {x : Eval α} (hx : x.Repeatable) : (c.reading x).Repeatable := by
  unfold reading
  grind

@[grind ←] theorem calling_repeatable {x : Eval α} (hx : x.Repeatable) : (c.calling x).Repeatable := by
  unfold calling
  grind

@[grind ←] theorem element_repeatable (r : ObjectRef) (i : Nat) : (c.element r i).Repeatable := by
  unfold element
  grind

@[grind ←] theorem callFunction_repeatable (f : Value) (arguments : List Value) :
    (c.callFunction f arguments).Repeatable := by
  unfold callFunction
  grind

end ContextId

/-! ## Functions of the host -/

section HostFunctions

variable {E : Engine} {w : World} {f : HostFunction}

theorem HostFunction.enter_absent (arguments : List Value) (h : (w.context f.context).references = 0) :
    f.enter arguments E w = (newHostError LifetimeError.contextDropped.message >>= fun r =>
      Effect.fail (.object r) : Eval Value) E w := by
  simp only [enter, bind_eq, world, if_pos h]

theorem HostFunction.enter_present (arguments : List Value) (h : (w.context f.context).references ≠ 0) :
    f.enter arguments E w =
      f.context.keeping ((f.behaviour.perform arguments).handle (throwHostFailure f.context)) E w := by
  simp only [enter, bind_eq, world, if_neg h]
  refine congrArg (fun x : Eval Value => f.context.keeping x E w) ?_
  unfold handle
  congr 1
  funext result
  cases result <;> rfl

/-- A function that collects its arguments puts its call on record and adds to its collection, and that is
all. -/
theorem HostFunction.enter_collect {i : Nat} (hb : f.behaviour = .collect i) (arguments : List Value)
    (h : (w.context f.context).references ≠ 0) :
    f.enter arguments E w = (.ok .undefined, w.visit i arguments) := by
  have hcommutes : (World.holdContext f.context w).visit i arguments =
      World.holdContext f.context (w.visit i arguments) := by
    cases arguments <;> rfl
  have hstill : ((w.visit i arguments).context f.context).references ≠ 0 := by
    cases arguments <;> exact h
  rw [enter_present arguments h, hb]
  refine congrArg (Prod.mk (Except.ok Value.undefined)) ?_
  exact (congrArg (World.dropContext f.context) hcommutes).trans (World.drop_hold fun hnone => absurd hnone hstill)

theorem World.outlook_visit (i : Nat) (arguments : List Value) (w : World) : (w.visit i arguments).outlook =
    { w.outlook with collections := arguments.head?.elim w.collections fun v =>
        w.collections.modify i fun vs => vs ++ [v] } := by
  cases arguments <;> rfl

/-- A function that runs steps is on record when it has ended. -/
theorem HostFunction.hostCalls_enter (hE : E.Sound) {name : String} {body : HostBody}
    (hb : f.behaviour = .run name body) (arguments : List Value)
    (h : (w.context f.context).references ≠ 0) : w.hostCalls < (f.enter arguments E w).2.hostCalls := by
  have hperform := HostBehaviour.hostCalls_run (w := World.holdContext f.context w) hE name body arguments
  rw [enter_present arguments h, hb]
  refine Nat.lt_of_lt_of_le hperform (Nat.le_trans ?_ (World.tally_le (World.giveBack_indoors
    (.context f.context) _).record))
  rw [attempt]
  rcases (HostBehaviour.run name body).perform arguments E (World.holdContext f.context w)
    with ⟨stop | v, w₁⟩
  · cases stop with
    | failed e =>
      have hthrow : (throwHostFailure f.context e).Neutral [.context f.context] :=
        throwHostFailure_neutral List.mem_cons_self e
      exact World.tally_le (hthrow E hE {.context f.context} w₁ (by simp)).record
    | exhausted => exact Nat.le_refl _
    | senseless => exact Nat.le_refl _
  · exact Nat.le_refl _

theorem HostFunction.enter_repeats (hsound : E.Sound) (hE : E.Repeatable) (f : HostFunction)
    (arguments : List Value) : Repeats (f.enter arguments E) where
  calls w := by
    have hneutral : (f.enter arguments).Neutral [] := f.enter_neutral arguments
    exact World.tally_le (hneutral E hsound 0 w (by simp)).record
  alike w w' ho := by
    have hpresent : (w'.context f.context).references ≠ 0 ↔ (w.context f.context).references ≠ 0 :=
      iff_of_eq (congrFun (congrArg Outlook.present ho) f.context)
    by_cases hr : (w.context f.context).references = 0
    · have hr' : (w'.context f.context).references = 0 := not_not.1 fun h => hpresent.1 h hr
      have hgone : (newHostError LifetimeError.contextDropped.message >>= fun r =>
          Effect.fail (.object r) : Eval Value).ForeignActs := .bind (newHostError_foreignActs _) fun _ => .fail _
      rw [enter_absent arguments hr, enter_absent arguments hr']
      exact (hgone.repeatable E hE).alike w w' ho
    · have hr' : (w'.context f.context).references ≠ 0 := hpresent.2 hr
      cases hb : f.behaviour with
      | run name body =>
        exact .inr ⟨hostCalls_enter hsound hb arguments hr, hostCalls_enter hsound hb arguments hr'⟩
      | collect i =>
        have hcollections : w'.collections = w.collections := congrArg Outlook.collections ho
        rw [enter_collect hb arguments hr, enter_collect hb arguments hr']
        exact .inl ⟨rfl, by rw [World.outlook_visit, World.outlook_visit, ho, hcollections]⟩

end HostFunctions

theorem HostId.enter_repeats {E : Engine} (hsound : E.Sound) (hE : E.Repeatable) (h : HostId)
    (arguments : List Value) : Repeats (h.enter arguments E) := by
  have hnone {w : World} (hf : w.hostFunctions[h.index]? = none) :
      h.enter arguments E w = (.ok .undefined, w) := by
    simp only [HostId.enter, bind_eq, world, hf]
    rfl
  have hsome {w : World} {f : HostFunction} (hf : w.hostFunctions[h.index]? = some f) :
      h.enter arguments E w = f.enter arguments E w := by
    simp only [HostId.enter, bind_eq, world, hf]
  refine ⟨fun w => ?_, fun w w' ho => ?_⟩
  · cases hf : w.hostFunctions[h.index]? with
    | none => rw [hnone hf]
    | some f =>
      rw [hsome hf]
      exact (f.enter_repeats hsound hE arguments).calls w
  · have hfunctions : w'.hostFunctions = w.hostFunctions := congrArg Outlook.hostFunctions ho
    cases hf : w.hostFunctions[h.index]? with
    | none =>
      rw [hnone hf, hnone (hfunctions ▸ hf)]
      exact .inl ⟨rfl, ho⟩
    | some f =>
      rw [hsome hf, hsome (hfunctions ▸ hf)]
      exact (f.enter_repeats hsound hE arguments).alike w w' ho

/-- The functions of an engine with a bounded nesting go by the outlook of the world. -/
theorem Engine.ofFuel_repeatable (n room : Nat) : (Engine.ofFuel n room).Repeatable := by
  induction n generalizing room with
  | zero => exact fun _ _ _ _ => .of_outlook (fun _ => rfl) fun _ _ ho => ⟨rfl, ho⟩
  | succ n ih =>
    intro room' f receiver arguments
    have henter : Repeats (f.enter receiver arguments (Engine.ofFuel n room')) := by
      by_cases hhost : ∃ h, f = .host h
      · obtain ⟨h, rfl⟩ := hhost
        exact h.enter_repeats (Engine.ofFuel_sound n room') (ih room') arguments
      · have hacts := f.enter_foreignActs (fun h heq => hhost ⟨h, heq⟩) receiver arguments
        exact hacts.repeatable _ (ih room')
    -- The record of moments is out of sight.
    exact ⟨fun w => henter.calls w.mark, fun w w' ho => henter.alike w.mark w'.mark ho⟩

end ProxySession
