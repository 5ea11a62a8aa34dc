import ProxySession.Proofs.ContextReferences
import ProxySession.Proofs.Steps

/-!
# Foreign code that leaves a context alone

`KeepsContext` says that all that a context holds is afterwards what it was: its handles, its identity maps,
its references and the lists made in it. Only the failures that wait there may change. The functions of an
engine with a bounded nesting leave every context alone as long as they call no host function that runs
steps, and the record of crossings says whether they did. `KeepsUnless` is the regime that allows for such
calls.
-/

namespace ProxySession

namespace Holdings

/-- A context holds what it held. -/
structure KeepsContext (c : ContextId) (h h' : Holdings) : Prop where
  context : ∃ failures tag,
    h'.context c = { h.context c with pending := failures, lastTag := tag }
  size : h.lists.size ≤ h'.lists.size
  lists : ∀ l : ListId, l.index < h.lists.size → (h.list l).context = c → h'.list l = h.list l

namespace KeepsContext

variable {c : ContextId} {h h' h'' : Holdings}

theorem refl (c : ContextId) (h : Holdings) : h.KeepsContext c h :=
  ⟨⟨_, _, rfl⟩, Nat.le_refl _, fun _ _ _ => rfl⟩

theorem trans (h₁ : h.KeepsContext c h') (h₂ : h'.KeepsContext c h'') : h.KeepsContext c h'' where
  context := by
    obtain ⟨failures, tag, h₁⟩ := h₁.context
    obtain ⟨failures', tag', h₂⟩ := h₂.context
    exact ⟨failures', tag', by rw [h₂, h₁]⟩
  size := Nat.le_trans h₁.size h₂.size
  lists l hl hc := by
    have hl₁ := h₁.lists l hl hc
    rw [h₂.lists l (Nat.lt_of_lt_of_le hl h₁.size) (by rw [hl₁, hc]), hl₁]

theorem of_same (hcontext : h'.context c = h.context c) (hlists : h'.lists = h.lists) :
    h.KeepsContext c h' where
  context := ⟨_, _, hcontext⟩
  size := Nat.le_of_eq (congrArg Array.size hlists).symm
  lists l _ _ := by rw [list, list, hlists]

theorem modifyContext {d : ContextId} (hd : d ≠ c) (f : Context → Context) (h : Holdings) :
    h.KeepsContext c (h.modifyContext d f) :=
  of_same (by rw [context_modifyContext, if_neg fun hc => hd hc.1]) rfl

/-- The books on failures may change in any context. -/
theorem books (d : ContextId) (failures : Context → List HostFailure) (tag : Context → Nat)
    (h : Holdings) : h.KeepsContext c
      (h.modifyContext d fun cx => { cx with pending := failures cx, lastTag := tag cx }) where
  context := by
    rw [context_modifyContext]
    split
    · exact ⟨_, _, rfl⟩
    · exact ⟨_, _, rfl⟩
  size := Nat.le_refl _
  lists _ _ _ := rfl

theorem shutScanners (ss : List ScannerId) (h : Holdings) : h.KeepsContext c (h.shutScanners ss) := by
  induction ss generalizing h with
  | nil => exact refl c h
  | cons s rest ih =>
    have hs : h.KeepsContext c (h.shutScanner s) := of_same rfl rfl
    exact hs.trans (ih _)

theorem shutContext {d : ContextId} (hd : d ≠ c) (h : Holdings) : h.KeepsContext c (h.shutContext d) := by
  rw [Holdings.shutContext]
  split
  · exact refl c h
  · exact (shutScanners _ h).trans (modifyContext hd _ _)

theorem giveContext {d : ContextId} (hd : d ≠ c) (h : Holdings) : h.KeepsContext c (h.giveContext d) := by
  rw [giveContext_eq]
  split
  · exact (modifyContext hd _ h).trans (shutContext hd _)
  · exact modifyContext hd _ h

/-- What keeps a context alive for a while takes a reference and gives it back. -/
theorem keeping (d : ContextId) (hr : (h.context d).references ≠ 0)
    (hs : (h.take (.context d)).KeepsContext c h') : h.KeepsContext c (h'.giveContext d) := by
  by_cases hd : d = c
  · subst hd
    have hv : d.index < h.contexts.size := valid_of_count (r := .context d) hr
    have htaken : (h.take (.context d)).context d =
        { h.context d with references := (h.context d).references + 1 } := by
      rw [take, context_modifyContext, if_pos ⟨rfl, hv⟩]
    obtain ⟨failures, tag, hcontext⟩ := hs.context
    rw [htaken] at hcontext
    -- The reference that was there before is still there, so the context does not end.
    have hlast : ¬(h'.context d).references ≤ 1 := by
      rw [hcontext]
      dsimp only
      omega
    have hv' : d.index < h'.contexts.size :=
      valid_of_count (r := .context d) (by rw [count]; omega)
    refine ⟨⟨failures, tag, ?_⟩, ?_, ?_⟩
    · rw [giveContext_eq, if_neg hlast, adjust, context_modifyContext, if_pos ⟨rfl, hv'⟩, hcontext]
      rfl
    · rw [giveContext_eq, if_neg hlast]
      exact hs.size
    · rw [giveContext_eq, if_neg hlast]
      exact hs.lists
  · exact ((modifyContext hd _ h).trans hs).trans (giveContext hd h')

end KeepsContext

end Holdings

/-! ## Unless a crossing is recorded -/

namespace World

/-- The number of crossings of some sort that were recorded. -/
def tally (p : Crossing → Bool) (w : World) : Nat := w.crossings.toList.countP p

variable {p : Crossing → Bool} {c : ContextId} {w w' w'' : World}

theorem tally_le (h : w.crossings.toList <+: w'.crossings.toList) : w.tally p ≤ w'.tally p :=
  h.sublist.countP_le

/-- A context is left alone unless a crossing of some sort is recorded. -/
structure KeepsUnless (p : Crossing → Bool) (c : ContextId) (w w' : World) : Prop where
  tally : w.tally p ≤ w'.tally p
  keepsContext : w'.tally p = w.tally p → w.toHoldings.KeepsContext c w'.toHoldings

namespace KeepsUnless

theorem trans (h₁ : w.KeepsUnless p c w') (h₂ : w'.KeepsUnless p c w'') : w.KeepsUnless p c w'' where
  tally := Nat.le_trans h₁.tally h₂.tally
  keepsContext he := by
    have ht₁ := h₁.tally
    have ht₂ := h₂.tally
    exact (h₁.keepsContext (by omega)).trans (h₂.keepsContext (by omega))

theorem of_keepsContext (hr : w.crossings.toList <+: w'.crossings.toList)
    (hs : w.toHoldings.KeepsContext c w'.toHoldings) : w.KeepsUnless p c w' :=
  ⟨tally_le hr, fun _ => hs⟩

theorem of_holdings (hr : w.crossings.toList <+: w'.crossings.toList)
    (hh : w'.toHoldings = w.toHoldings) : w.KeepsUnless p c w' :=
  of_keepsContext hr (hh ▸ .refl c _)

theorem contextRegime (p : Crossing → Bool) (c : ContextId) : ContextRegime (KeepsUnless p c) where
  aside h := of_holdings h.record (by rw [← h.rest])
  trans := trans
  settled d w := of_keepsContext List.prefix_rfl (.books d (fun _ => []) Context.lastTag w.toHoldings)
  keeping {d w w'} hr h := by
    have hle : w'.tally p ≤ (dropContext d w').tally p :=
      tally_le (giveBack_indoors (.context d) w').record
    have hheld : (holdContext d w).tally p = w.tally p := rfl
    have hspent := h.tally
    refine ⟨Nat.le_trans hspent hle, fun he => ?_⟩
    rw [(dropContext_becomes d w').holdings]
    exact .keeping d hr (h.keepsContext (by omega))

end KeepsUnless

end World

/-! ## Engines -/

/-- All that an engine runs leaves a context alone. -/
abbrev Engine.KeepsContext (E : Engine) (c : ContextId) : Prop :=
  E.Obeys fun w w' => w.toHoldings.KeepsContext c w'.toHoldings

theorem Engine.KeepsContext.keepsUnless {E : Engine} {c : ContextId} (h : E.KeepsContext c) :
    E.Obeys (World.KeepsUnless (fun _ => false) c) := fun room f receiver arguments w =>
  ⟨by simp [World.tally], fun _ => h room f receiver arguments w⟩

/-- Whether a crossing is a call of a host function that runs steps. Host functions that only collect their
arguments touch no context, and no crossing tells of them. -/
def Crossing.isHost : Crossing → Bool
  | .host _ _ => true
  | _ => false

/-- The number of such calls on record. -/
def World.hostCalls (w : World) : Nat := w.tally Crossing.isHost

section HostFunctions

variable {E : Engine} {c : ContextId} {w : World}

/-- A host function that runs steps is on record before the first of them. -/
theorem HostBehaviour.hostCalls_run (hE : E.Sound) (name : String) (body : HostBody)
    (arguments : List Value) :
    w.hostCalls < ((HostBehaviour.run name body).perform arguments E w).2.hostCalls := by
  have hbody : (body.run arguments).Neutral [] := body.run_neutral arguments
  have hrest := hbody E hE 0 (w.cross (.host name (arguments.map w.showValue))) (by simp)
  have hle := World.tally_le (p := Crossing.isHost) hrest.record
  have hcall : (w.cross (.host name (arguments.map w.showValue))).tally Crossing.isHost =
      w.tally Crossing.isHost + 1 := by
    simp [World.tally, World.cross, Crossing.isHost]
  rw [hcall] at hle
  exact hle

theorem HostBehaviour.perform_keepsUnless (hE : E.Sound) (b : HostBehaviour) (arguments : List Value) :
    w.KeepsUnless Crossing.isHost c (b.perform arguments E w).2 := by
  cases b with
  | run name body =>
    have hlt := hostCalls_run (w := w) hE name body arguments
    exact ⟨Nat.le_of_lt hlt, fun he => absurd he (Nat.ne_of_gt hlt)⟩
  | collect collection => cases arguments <;> exact .of_holdings List.prefix_rfl rfl

theorem throwHostFailure_keepsUnless (hE : E.Obeys (World.KeepsUnless Crossing.isHost c))
    (d : ContextId) (e : SessionError) :
    w.KeepsUnless Crossing.isHost c (throwHostFailure d e E w).2 := by
  have hR := World.KeepsUnless.contextRegime Crossing.isHost c
  obtain ⟨r, w₁, hw, _, hrun⟩ := throwHostFailure_run d e E w
  have hrecord : w₁.KeepsUnless Crossing.isHost c (w₁.recordHostFailure (w₁.nextFailure d e r)) :=
    .of_keepsContext List.prefix_rfl (.books d _ _ w₁.toHoldings)
  rw [hrun]
  exact (hR.trans (hR.aside hw) hrecord).trans ((throwTagged_foreignActs _).foreign _ hR.toRegime E hE _)

theorem HostFunction.attempt_keepsUnless (hsound : E.Sound)
    (hE : E.Obeys (World.KeepsUnless Crossing.isHost c)) (f : HostFunction) (arguments : List Value) :
    w.KeepsUnless Crossing.isHost c ((do
      match ← (f.behaviour.perform arguments).attempt with
      | .ok v => pure v
      | .error e => throwHostFailure f.context e : Eval Value) E w).2 := by
  have hperform := f.behaviour.perform_keepsUnless (c := c) (w := w) hsound arguments
  rw [Effect.bind_eq, Effect.attempt]
  rcases hp : f.behaviour.perform arguments E w with ⟨stop | v, w₁⟩
  · rw [hp] at hperform
    cases stop with
    | failed e => exact hperform.trans (throwHostFailure_keepsUnless hE f.context e)
    | exhausted => exact hperform
    | senseless => exact hperform
  · rw [hp] at hperform
    exact hperform

theorem HostFunction.enter_keepsUnless (hsound : E.Sound)
    (hE : E.Obeys (World.KeepsUnless Crossing.isHost c)) (f : HostFunction) (arguments : List Value) :
    w.KeepsUnless Crossing.isHost c (f.enter arguments E w).2 := by
  have hR := World.KeepsUnless.contextRegime Crossing.isHost c
  change w.KeepsUnless _ c ((if (w.context f.context).references = 0 then _ else _ : Eval Value) E w).2
  split
  · have hgone : ((newHostError LifetimeError.contextDropped.message >>= fun r =>
        Effect.fail (.object r) : Eval Value)).ForeignActs :=
      .bind (newHostError_foreignActs _) fun _ => .fail _
    exact hgone.foreign _ hR.toRegime E hE w
  · next hr => exact hR.keeping hr (f.attempt_keepsUnless hsound hE arguments)

end HostFunctions

/-- Unless such a call goes on record, the functions of an engine with a bounded nesting leave every context
alone. -/
theorem Engine.ofFuel_keepsUnless (c : ContextId) (n room : Nat) :
    (Engine.ofFuel n room).Obeys (World.KeepsUnless Crossing.isHost c) := by
  have hR := World.KeepsUnless.contextRegime Crossing.isHost c
  -- What follows a call has to keep the call on record, so the regime says that the session progresses, too.
  have hboth : (Engine.ofFuel n room).Obeys fun w w' =>
      (∀ F, Progress F w F w') ∧ w.KeepsUnless Crossing.isHost c w' := by
    refine ofFuel_obeys ⟨fun ha => ⟨Progress.regime.aside ha, hR.aside ha⟩, fun h₁ h₂ =>
      ⟨Progress.regime.trans h₁.1 h₂.1, hR.trans h₁.2 h₂.2⟩⟩
      (fun w => ⟨fun _ => .mark, .of_holdings List.prefix_rfl rfl⟩)
      (fun E hE h arguments w => ?_) n room
    have hsound : E.Sound := fun room f receiver arguments F w =>
      (hE room f receiver arguments w).1 F
    have hobeys : E.Obeys (World.KeepsUnless Crossing.isHost c) := fun room f receiver arguments w =>
      (hE room f receiver arguments w).2
    have henter : (h.enter arguments).Neutral [] := h.enter_neutral arguments
    refine ⟨fun F => henter E hsound F w (by simp), ?_⟩
    cases hf : w.hostFunctions[h.index]? with
    | none =>
      have hrun : h.enter arguments E w = (.ok .undefined, w) := by
        simp only [HostId.enter, Effect.bind_eq, Effect.world, hf]
        rfl
      rw [hrun]
      exact hR.refl w
    | some f =>
      have hrun : h.enter arguments E w = f.enter arguments E w := by
        simp only [HostId.enter, Effect.bind_eq, Effect.world, hf]
      rw [hrun]
      exact f.enter_keepsUnless hsound hobeys arguments
  exact fun room f receiver arguments w => (hboth room f receiver arguments w).2

/-- No such call is taken off the record. -/
theorem Effect.NonRetaining.calls {ε α : Type} {x : Effect ε α} (hx : x.NonRetaining) (n room : Nat)
    (w : World) : w.hostCalls ≤ (x (Engine.ofFuel n room) w).2.hostCalls :=
  (hx _ (World.KeepsUnless.contextRegime _ ⟨0⟩) _ (Engine.ofFuel_keepsUnless ⟨0⟩ n room) w).tally

theorem Effect.NonRetaining.calls_le {ε α : Type} {x : Effect ε α} (hx : x.NonRetaining) {n room : Nat}
    {w w' : World} {r : Except (Stop ε) α} (h : x (Engine.ofFuel n room) w = (r, w')) :
    w.hostCalls ≤ w'.hostCalls :=
  (hx.calls n room w).trans_eq (congrArg (fun run => run.2.hostCalls) h)

/-- If there are no such calls in a whole run, there are none in either part of it. -/
theorem World.hostCalls_parts {w w₁ w' : World} (hfirst : w.hostCalls ≤ w₁.hostCalls)
    (hrest : w₁.hostCalls ≤ w'.hostCalls) (he : w'.hostCalls = w.hostCalls) :
    w₁.hostCalls = w.hostCalls ∧ w'.hostCalls = w₁.hostCalls :=
  ⟨Nat.le_antisymm (hrest.trans_eq he) hfirst, Nat.le_antisymm (he.trans_le hfirst) hrest⟩

end ProxySession
