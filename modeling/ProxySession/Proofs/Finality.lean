import ProxySession.Proofs.AfterClosing
import ProxySession.Proofs.Moments

/-!
# Closing is final

The first closing of a context succeeds at any time and leaves nothing; later ones fail. A closed
context stays empty, makes nothing any more, and refuses whatever needs its foreign objects.
-/

namespace ProxySession

open Effect

/-- A context that is closed and empty, together with its sessions. -/
structure Holdings.Gone (c : ContextId) (h : Holdings) : Prop where
  closed : (h.context c).custodian.closed = true
  handles : (h.context c).custodian.liveHandles = 0
  entries : ∀ k, ((h.context c).identities k).size = 0
  sessions : ∀ s, s.index < h.scanners.size → (h.scanner s).context = c →
    (h.scanner s).custodian.closed = true

namespace Holdings

variable {F : Multiset Reference} {h h' : Holdings} {c : ContextId}

theorem gone_of_closed (hs : Sound F h) (hc : (h.context c).custodian.closed = true) : h.Gone c where
  closed := hc
  handles := by
    rw [Custodian.liveHandles, (hs.ended c hc).slots]
    rfl
  entries k := by
    rw [IdentityMap.size, (hs.ended c hc).entries k]
    rfl
  sessions s hv hx := by
    by_contra ho
    exact (hs.ended c hc).sessions s ⟨hv, hx, by simpa using ho⟩

theorem shutContext_closed (hv : c.index < h.contexts.size) :
    ((h.shutContext c).context c).custodian.closed = true := by
  cases ho : (h.context c).custodian.closed with
  | true => rw [shutContext_of_closed ho, ho]
  | false =>
    rw [shutContext_of_open ho, context_modifyContext, if_pos ⟨rfl, by simpa using hv⟩]
    rfl

/-- A closed context hands out no more proxies. -/
theorem Later.resolutionsOf_eq (hl : h.Later h') (hc : (h.context c).custodian.closed = true) :
    h'.resolutionsOf c = h.resolutionsOf c := by
  obtain ⟨new, hnew, hopen⟩ := hl.resolutions
  have hnone : new.filter (fun ρ => decide (ρ.proxy.context = c)) = [] := by
    rw [List.filter_eq_nil_iff]
    intro ρ hρ hx
    have ho := hopen ρ hρ
    rw [of_decide_eq_true hx, hc] at ho
    cases ho
  rw [resolutionsOf, hnew, List.filter_append, hnone, List.append_nil, resolutionsOf]

end Holdings

namespace ContextId

variable {w : World} {c : ContextId}

theorem close_of_open (ho : (w.context c).custodian.closed = false) (E : Engine) :
    c.close E w = (.ok (), (World.tearDown c w).2) := by
  simp only [close, bind_eq, act_apply, (World.tearDown_of_open ho).1]
  rfl

theorem close_of_closed (hc : (w.context c).custodian.closed = true) (E : Engine) :
    c.close E w = (.error (.failed (.lifetime (.closedTwice (w.context c).custodian.name))),
      w.log .span "close_program_context" []) := by
  simp only [close, bind_eq, act_apply, World.tearDown_of_closed hc]
  rfl

end ContextId

/-- Nobody enters a context that is gone to look for its walker. -/
theorem Node.children_of_dropped {w : World} {n : Node}
    (hr : (w.context n.context).references = 0) (E : Engine) :
    Node.children n E w =
      (.error (.failed (.located "Node.forEachChild" (.lifetime .contextDropped))), w) := by
  have henter {α : Type} (x : Operation α) :
      n.context.entering x E w = (.error (.failed (.lifetime .contextDropped)), w) := by
    rw [ContextId.entering, bind_eq]
    simp only [world, if_pos hr]
    rfl
  rw [Node.children, Effect.located, Effect.handle, bind_eq, attempt_of_failed (henter _)]
  rfl

/-! ## What is refused -/

/-- What a closed context refuses in a world, and what it still answers without handing out a proxy, a
list or a session. -/
structure World.Refuses (c : ContextId) (w : World) : Prop where
  close : ∀ E, c.close E w =
    (.error (.failed (.lifetime (.closedTwice (w.context c).custodian.name))),
      w.log .span "close_program_context" [])
  program : c.program.Refused SessionError.IsLapse w
  sourceFiles : c.sourceFiles.Refused SessionError.IsLapse w
  sourceFile : ∀ name, (c.sourceFile name).Refused SessionError.IsLapse w
  scanner : ∀ text, (c.scanner text).Refused SessionError.IsLapse w
  checker : ∀ q : CheckerQuery,
    (q.answer c.checker).Senseless w ∨ (q.answer c.checker).Refused SessionError.IsLapse w
  /-- Something of the context answers only what is at hand. -/
  queries : ∀ item, Item.home? w.toHoldings item = some c → ∀ q : Query,
    q.isAtHand w.toHoldings item = false → q.Barred (w.context c) w (q.answer item)
  /-- A walk through a list fails at each element. -/
  elements : ∀ l, (w.list l).context = c → ∃ es : List SessionError,
    es.length = (w.list l).length ∧ (∀ e ∈ es, e.root.IsLapse) ∧
      ∀ E, ((w.list l).iterate : Operation (List (Except SessionError Node))) E w =
        (.ok (es.map .error), w)
  /-- Only a getter gives back a proxy, the one that its item is made of. -/
  answers : ∀ item, Item.home? w.toHoldings item = some c → ∀ q : Query, q.isGetter = false →
    ∀ E a, (q.answer item E w).1 = .ok a → a.isBare = true
  /-- A command that runs in the context hands out nothing. -/
  commands : ∀ context, w.lookup context = some (.context c) → ∀ command : Command,
    command.isOfContext = true → ∀ label fuel room item,
      (command.run context label (Engine.ofFuel fuel room) w).1 = .ok item → item.isBare = true

theorem World.refuses_of_closed {F : Multiset Reference} {w : World} {c : ContextId}
    (hs : w.Sound F) (hc : (w.context c).custodian.closed = true) : w.Refuses c where
  close := ContextId.close_of_closed hc
  program := ContextId.program_refused hc
  sourceFiles := ContextId.sourceFiles_refused hc
  sourceFile := ContextId.sourceFile_refused hc
  scanner := ContextId.scanner_refused hc
  checker q := q.answer_refused hc
  queries item hhome q hq := by
    refine Query.answer_barred hhome hc (fun s hi => ?_) q hq
    subst hi
    obtain ⟨hv, hx⟩ := Item.scanner_home hhome
    exact (Holdings.gone_of_closed hs hc).sessions s hv hx
  elements l hl := by
    obtain ⟨es, hlength, hes, hrun⟩ := Query.iterate_refused (l := w.list l) (hl ▸ hc)
    exact ⟨es, hlength, fun e he => (hes e he).1, hrun⟩
  answers item hhome q hg E a hr := by
    refine Query.answer_bare hhome hc (fun s hi => ?_) hg hr
    subst hi
    obtain ⟨hv, hx⟩ := Item.scanner_home hhome
    exact (Holdings.gone_of_closed hs hc).sessions s hv hx
  commands context hl command ho label fuel room item hr :=
    Command.run_bare (Engine.ofFuel_sound fuel room) hs hl hc ho label hr

namespace Session

section

variable {heap : Heap}

/-- A session can close an open context at any time. -/
theorem Reached.tearDown {w : World} (hr : Reached heap w.toHoldings) (c : ContextId) :
    Reached heap (World.tearDown c w).2.toHoldings := by
  obtain ⟨F, w₀, hm, he⟩ := hr
  rw [(World.tearDown_becomes c w).holdings, ← he]
  have hw : w₀.Becomes { w₀ with toHoldings := w₀.toHoldings.shutContext c }
      (w₀.toHoldings.shutContext c) := ⟨rfl, rfl⟩
  exact ⟨F, _, hm.trans (Moves.change (.shutContext c) hw), rfl⟩

theorem Leads.gone {h h' : Holdings} {c : ContextId} (hl : Leads heap h h')
    (hc : (h.context c).custodian.closed = true) : h'.Gone c := by
  obtain ⟨F, hs⟩ := hl.reached.sound
  exact Holdings.gone_of_closed hs (hl.later.closed c hc)

end

variable (fuel : Nat) (heap : Heap) (scripts : List Script) (steps : List Step)

/-- Opens a context without a walker, resolves a node, closes the context and gives it up. -/
def partingSteps : List Step :=
  [.mk (.open (.value (.object ⟨5⟩)) {}) "cx" (some "cx"),
    .mk (.resolve .node (.value (.object ⟨6⟩))) "cx" (some "node"),
    .mk .close "cx" none,
    .mk (.drop "cx") "cx" none]

/-- The world after the parting from the context. -/
def partedWorld : World := last 3 sampleHeap [] partingSteps

/-- The node that was resolved before the parting. -/
def partedNode : Node := ⟨⟨0⟩, 7, ⟨5⟩⟩

end Session

end ProxySession
