import ProxySession.Proofs.EffectProgress

/-!
# What a closed context refuses

An access to a closed context fails at once: it runs nothing and changes nothing. It fails for the
lifetime of the context, except that a context that is still there and has no walker misses the
walker first. What enters a context that is gone fails because the context was dropped.
-/

namespace ProxySession

open Effect

variable {α β : Type} {roots : SessionError → Prop} {w : World}

/-- A failure for the lifetime of what was used. -/
def SessionError.IsLapse (root : SessionError) : Prop := ∃ e, root = .lifetime e

/-- A failure for the lifetime of a context, which is a dropped one if nothing keeps it alive. -/
def Context.Lapse (cx : Context) (root : SessionError) : Prop :=
  root.IsLapse ∧ (cx.references = 0 → root = .lifetime .contextDropped)

/-- A failure for the lifetime of a scanner session that is closed. -/
def ScannerSession.Lapse (session : ScannerSession) (root : SessionError) : Prop :=
  root = .lifetime (.useAfterClose session.custodian.name)

theorem ScannerSession.Lapse.isLapse {session : ScannerSession} {root : SessionError}
    (h : session.Lapse root) : root.IsLapse := ⟨_, h⟩

namespace Effect

/-- An effect that makes no sense in a world. -/
def Senseless (w : World) (x : Operation α) : Prop := ∀ E, x E w = (.error .senseless, w)

/-- An effect that fails at once, with one of some roots: whatever the engine would run, the world is
left as it is. -/
def Refused (roots : SessionError → Prop) (w : World) (x : Operation α) : Prop :=
  ∃ e : SessionError, roots e.root ∧ ∀ E, x E w = (.error (.failed e), w)

/-! ## Sequences -/

theorem Refused.bind {x : Operation α} {f : α → Operation β} (h : x.Refused roots w) :
    (x >>= f).Refused roots w := by
  obtain ⟨e, he, hx⟩ := h
  exact ⟨e, he, fun E => by rw [bind_eq, hx E]⟩

theorem Refused.map {g : α → β} {x : Operation α} (h : x.Refused roots w) :
    (g <$> x).Refused roots w :=
  h.bind (f := fun a => pure (g a))

/-- The world as it is at the start of what reads it. -/
theorem Refused.ofWorld {f : World → Operation α} (h : (f w).Refused roots w) :
    (world >>= f).Refused roots w := h

theorem Refused.fail {e : SessionError} (h : roots e.root) :
    (Effect.fail e : Operation α).Refused roots w := ⟨e, h, fun _ => rfl⟩

theorem Refused.mono {roots' : SessionError → Prop} {x : Operation α} (h : x.Refused roots w)
    (hr : ∀ e, roots e → roots' e) : x.Refused roots' w := by
  obtain ⟨e, he, hx⟩ := h
  exact ⟨e, hr _ he, hx⟩

theorem act_apply {ε : Type} (f : World → α × World) (E : Engine) (w : World) :
    (act f : Effect ε α) E w = (.ok (f w).1, (f w).2) := rfl

theorem attempt_of_failed {δ : Type} {x : Operation α} {e : SessionError} {E : Engine}
    (h : x E w = (.error (.failed e), w)) :
    (x.attempt : Effect δ (Except SessionError α)) E w = (.ok (.error e), w) := by
  rw [Effect.attempt, h]

/-- Where a failure arose does not matter. -/
theorem Refused.located {x : Operation α} (site : String) (h : x.Refused roots w) :
    (x.located site).Refused roots w := by
  obtain ⟨e, he, hx⟩ := h
  refine ⟨.located site e, he, fun E => ?_⟩
  rw [Effect.located, Effect.handle, bind_eq, attempt_of_failed (hx E)]
  rfl

/-- Attempts that are all refused collect their failures. -/
theorem collect_refused {δ : Type} {x : α → Operation β} :
    (as : List α) → (∀ a ∈ as, (x a).Refused roots w) →
      ∃ es : List SessionError, es.length = as.length ∧ (∀ e ∈ es, roots e.root) ∧
        ∀ E, (Effect.collect (fun a => (x a).attempt) as :
          Effect δ (List (Except SessionError β))) E w = (.ok (es.map .error), w)
  | [], _ => ⟨[], rfl, fun _ he => absurd he List.not_mem_nil, fun _ => rfl⟩
  | a :: rest, h => by
    obtain ⟨e, he, hx⟩ := h a List.mem_cons_self
    obtain ⟨es, hlength, hes, hrest⟩ :=
      collect_refused (δ := δ) rest fun a ha => h a (List.mem_cons_of_mem _ ha)
    refine ⟨e :: es, congrArg (· + 1) hlength, List.forall_mem_cons.2 ⟨he, hes⟩, fun E => ?_⟩
    simp only [Effect.collect, bind_eq, attempt_of_failed (hx E), hrest E]
    rfl

end Effect

/-! ## Entering a closed context -/

namespace ContextId

variable {c : ContextId}

theorem hold_closed (hc : (w.context c).custodian.closed = true) :
    ((World.holdContext c w).context c).custodian.closed = true := by
  have hm := Holdings.context_modifyContext c c
    (fun cx => { cx with references := cx.references + 1 }) w.toHoldings
  have hx : (World.holdContext c w).context c = _ := hm
  rw [hx]
  split <;> exact hc

theorem hold_forEachChild : ((World.holdContext c w).context c).forEachChild =
    (w.context c).forEachChild := by
  have hm := Holdings.context_modifyContext c c
    (fun cx => { cx with references := cx.references + 1 }) w.toHoldings
  have hx : (World.holdContext c w).context c = _ := hm
  rw [hx]
  split <;> rfl

/-- What is refused inside a closed context is refused outside, and nobody enters a context that is
gone. -/
theorem entering_refused {x : Operation α} (hc : (w.context c).custodian.closed = true)
    (hgone : (w.context c).references = 0 → roots (.lifetime .contextDropped))
    (hx : (w.context c).references ≠ 0 → x.Refused roots (World.holdContext c w)) :
    (c.entering x).Refused roots w := by
  refine Refused.ofWorld ?_
  split
  · next hr => exact Refused.fail (hgone hr)
  · next hr =>
    obtain ⟨e, he, hrun⟩ := hx hr
    refine ⟨e, he, fun E => ?_⟩
    have hk : c.keeping x E w = ((x E (World.holdContext c w)).1,
        World.dropContext c (x E (World.holdContext c w)).2) := rfl
    rw [hk, hrun E, World.drop_hold fun _ => hc]

theorem entering_lapse {x : Operation α} (hc : (w.context c).custodian.closed = true)
    (hx : x.Refused SessionError.IsLapse (World.holdContext c w)) :
    (c.entering x).Refused (w.context c).Lapse w :=
  entering_refused hc (fun _ => ⟨⟨_, rfl⟩, fun _ => rfl⟩) fun hr =>
    hx.mono fun _ he => ⟨he, fun h0 => absurd h0 hr⟩

/-! ## Handles -/

theorem value_refused (hc : (w.context c).custodian.closed = true) (id : HandleId) :
    (c.value id).Refused SessionError.IsLapse w := by
  refine Refused.ofWorld ?_
  have hget : (w.context c).custodian.get id =
      .error (.useAfterClose (w.context c).custodian.name) := if_pos hc
  rw [hget]
  exact Refused.fail ⟨_, rfl⟩

theorem object_refused (hc : (w.context c).custodian.closed = true) (id : HandleId) :
    (c.object id).Refused SessionError.IsLapse w := (value_refused hc id).bind

theorem function_refused (hc : (w.context c).custodian.closed = true) (id : HandleId) :
    (c.function id).Refused SessionError.IsLapse w := (value_refused hc id).bind

theorem retain_refused (hc : (w.context c).custodian.closed = true) (v : Value) :
    (c.retain v).Refused SessionError.IsLapse w := by
  refine Refused.ofWorld ?_
  have hretain : (w.context c).custodian.retainHandle v =
      .error (.retainAfterClose (w.context c).custodian.name) := if_pos hc
  rw [hretain]
  exact Refused.fail ⟨_, rfl⟩

/-! ## The program -/

theorem program_refused (hc : (w.context c).custodian.closed = true) :
    c.program.Refused SessionError.IsLapse w :=
  Refused.ofWorld (object_refused hc _)

theorem sourceFiles_refused (hc : (w.context c).custodian.closed = true) :
    c.sourceFiles.Refused SessionError.IsLapse w := (program_refused hc).bind

theorem sourceFile_refused (hc : (w.context c).custodian.closed = true) (name : String) :
    (c.sourceFile name).Refused SessionError.IsLapse w := (program_refused hc).bind

theorem scanner_refused (hc : (w.context c).custodian.closed = true) (text : String) :
    (c.scanner text).Refused SessionError.IsLapse w :=
  Refused.bind (Refused.ofWorld (function_refused hc _).bind)

end ContextId

/-! ## Reading through a handle -/

namespace ProxyCore

variable (g : ProxyCore)

theorem access_refused (hc : (w.context g.context).custodian.closed = true) (name : String)
    {work : ObjectRef → Operation α} : (g.access name work).Refused (w.context g.context).Lapse w :=
  Refused.located _ (ContextId.entering_lapse hc
    (ContextId.object_refused (ContextId.hold_closed hc) _).bind)

theorem read_refused (hc : (w.context g.context).custodian.closed = true) (name : String)
    {convert : Conversion α} : (g.read name convert).Refused (w.context g.context).Lapse w :=
  g.access_refused hc name

theorem readNullable_refused (hc : (w.context g.context).custodian.closed = true) (name : String)
    {convert : Conversion α} : (g.readNullable name convert).Refused (w.context g.context).Lapse w :=
  g.access_refused hc name

theorem hasMethod_refused (hc : (w.context g.context).custodian.closed = true) (name : String) :
    (g.hasMethod name).Refused (w.context g.context).Lapse w := g.access_refused hc name

end ProxyCore

/-! ## The checker -/

/-- A proxy is refused as an argument, whatever context it belongs to. -/
theorem Proxy.foreign_refused {k : ProxyKind} (p : Proxy k) {c : ContextId}
    (hc : (w.context c).custodian.closed = true) : (p.foreign c).Refused SessionError.IsLapse w :=
  ContextId.value_refused hc p.handle

theorem Checker.callOn_refused {q : Checker} {k : ProxyKind}
    (hc : (w.context q.context).custodian.closed = true) (method : String) (p : Proxy k)
    {convert : Conversion α} : (q.callOn method p convert).Refused SessionError.IsLapse w :=
  (p.foreign_refused hc).bind

/-- An accessor that enters its context and asks the checker. -/
theorem ContextId.ask_refused {c : ContextId} {k : ProxyKind}
    (hc : (w.context c).custodian.closed = true) (method : String) (p : Proxy k)
    {convert : Conversion α} :
    (c.entering (c.checker.callOn method p convert)).Refused (w.context c).Lapse w :=
  entering_lapse hc (Checker.callOn_refused (q := c.checker) (hold_closed hc) method p)

end ProxySession
