import ProxySession.Proofs.Escapes
import ProxySession.Proofs.SessionLifespan

/-!
# Tracked sessions

An open context tracks each of its open sessions once. It may still track closed ones, until the next
opening: after that the sessions that it tracks are the open ones, unless some of them closed meanwhile.
-/

namespace ProxySession

open Effect

namespace Holdings

variable {F : Multiset Reference} {h : Holdings} {s : ScannerId} {c : ContextId}

/-! ## Open sessions -/

/-- The scanner sessions of a context that are open. -/
def openSessions (c : ContextId) (h : Holdings) : Nat :=
  h.scanners.countP fun s => s.context = c ∧ s.custodian.closed = false

/-- Sessions in a list are as many as the open ones of a context if they are these, each once. -/
theorem length_eq_openSessions {ss : List ScannerId} (hn : ss.Nodup)
    (hm : ∀ s, s ∈ ss ↔ h.OpenOn s c) : ss.length = h.openSessions c := by
  rw [openSessions, countP_eq_length_filter_range (d := default),
    ← List.length_map (f := ScannerId.index)]
  refine ((List.perm_ext_iff_of_nodup ?_ (List.nodup_range.filter _)).2 fun i => ?_).length_eq
  · exact hn.map fun s t he => by cases s; cases t; exact congrArg ScannerId.mk he
  · rw [List.mem_map, List.mem_filter, List.mem_range, decide_eq_true_iff]
    constructor
    · rintro ⟨s, hs, rfl⟩
      have ho := (hm s).1 hs
      exact ⟨ho.valid, ho.context, ho.isOpen⟩
    · rintro ⟨hi, hx, ho⟩
      exact ⟨⟨i⟩, (hm ⟨i⟩).2 ⟨hi, hx, ho⟩, rfl⟩

/-- Only an open context has an open session. -/
theorem OpenOn.context_open (ho : h.OpenOn s c) (hs : Sound F h) :
    (h.context c).custodian.closed = false := by
  by_contra hc
  exact (hs.ended c (by simpa using hc)).sessions s ho

/-- An open session is among those that its context tracks. -/
theorem OpenOn.tracked (ho : h.OpenOn s c) (hs : Sound F h) :
    s ∈ (h.context c).custodian.resources :=
  (hs.alive c (ho.context ▸ hs.scanners s ho.valid) (ho.context_open hs)).tracked s ho

end Holdings

/-! ## Opening a session -/

/-- What succeeds needs no cleaning up. -/
theorem Effect.onStop_ok {ε α : Type} {x : Effect ε α} {cleanup : World → World} {E : Engine}
    {w w' : World} {a : α} (h : x.onStop cleanup E w = (.ok a, w')) : x E w = (.ok a, w') := by
  rw [onStop] at h
  rcases hx : x E w with ⟨stop | b, w₁⟩ <;> rw [hx] at h <;> cases h
  rfl

section

variable {F : Multiset Reference} {w w' : World} {c : ContextId} {s : ScannerId} {text : String}
  {E : Engine}

/-- A session opens at one moment of its opening; what runs before and after that moves the world. -/
theorem ContextId.scanner_opens (hE : E.Sound) (hr : c.scanner text E w = (.ok s, w')) :
    ∃ w₁ w₂ r, Moves F w F w₁ ∧ (w₁.context c).custodian.closed = false ∧
      s = ⟨w₁.scanners.size⟩ ∧ w₁.Becomes w₂ (w₁.toHoldings.openSession c text r) ∧
        Moves (.scanner s ::ₘ F) w₂ (.scanner s ::ₘ F) w' := by
  obtain ⟨r, w₁, hobject, hr⟩ := bind_ok hr
  obtain ⟨t, w₂, hsession, hr⟩ := bind_ok hr
  obtain ⟨_, w₃, hreset, hr⟩ := bind_ok hr
  obtain ⟨_, w₄, hlog, hr⟩ := bind_ok hr
  cases hr
  have hbefore := (c.newScannerObject_neutral text E hE F w (List.forall_mem_nil _)).moves
  rw [hobject] at hbefore
  have hafter := (s.reset_neutral 0 E hE (.scanner s ::ₘ F) w₂ (List.forall_mem_nil _)).moves
  rw [onStop_ok hreset] at hafter
  have hend : Moves (.scanner s ::ₘ F) w₃ (.scanner s ::ₘ F) w' := by
    cases hlog
    exact .still ⟨rfl, rfl⟩
  cases ho : (w₁.context c).custodian.closed with
  | true =>
    rw [newSession_of_closed c text r E ho] at hsession
    cases hsession
  | false =>
    obtain ⟨w₂', hrun, hturns⟩ := newSession_of_open c text r E ho
    rw [hrun] at hsession
    cases hsession
    exact ⟨w₁, _, r, hbefore, ho, rfl, hturns.toBecomes, hafter.trans hend⟩

variable (hE : E.Sound) (hs : w.Sound F) (ho : w.Orderly) (hc : .context c ∈ F)
  (hr : c.scanner text E w = (.ok s, w'))

include hE hs ho hc hr

/-- After an opening a context tracks none of the sessions that were closed before. -/
theorem ContextId.scanner_forgets : w'.Sound (.scanner s ::ₘ F) ∧ w'.Orderly ∧
    ∀ t ∈ (w'.context c).custodian.resources, t.index < w.scanners.size →
      (w.scanner t).custodian.closed = false := by
  obtain ⟨w₁, w₂, r, hbefore, hopen, rfl, hbecomes, hafter⟩ := scanner_opens (F := F) hE hr
  have hs₁ := (hbefore.sound_later hs).1
  obtain ⟨ho₁, hlater₁⟩ := hbefore.orderly_later hs ho
  have hopening : Moves F w₁ (.scanner ⟨w₁.scanners.size⟩ ::ₘ F) w₂ :=
    .change (.openSession text r hc hopen) hbecomes
  have hs₂ := (hopening.sound_later hs₁).1
  obtain ⟨ho₂, hlater₂⟩ := hopening.orderly_later hs₁ ho₁
  obtain ⟨ho', hlater'⟩ := hafter.orderly_later hs₂ ho₂
  refine ⟨(hafter.sound_later hs₂).1, ho', fun t ht hv => Bool.eq_false_iff.2 fun hclosed => ?_⟩
  have hv₁ := Nat.lt_of_lt_of_le hv hlater₁.size
  have ht₂ := hlater'.resources c t ht (Nat.lt_of_lt_of_le hv₁ hlater₂.size)
  rw [hbecomes.holdings] at ht₂
  rcases (Holdings.mem_openSession (Holdings.valid_of_owned hs₁ hc)).1 ht₂ with
    ⟨_, hopen₁⟩ | ⟨_, rfl⟩
  · rw [hlater₁.closed t hv hclosed] at hopen₁
    cases hopen₁ rfl
  · exact Nat.lt_irrefl _ hv₁

/-- If none of its sessions closes in the course of an opening, a context then tracks as many as are
open. -/
theorem ContextId.scanner_tracked
    (hkept : ∀ t, t.index < w'.scanners.size → (w'.scanner t).context = c →
      (w'.scanner t).custodian.closed = true →
        t.index < w.scanners.size ∧ (w.scanner t).custodian.closed = true) :
    (w'.context c).custodian.resources.length = w'.openSessions c := by
  obtain ⟨hs', ho', hforgets⟩ := scanner_forgets hE hs ho hc hr
  refine Holdings.length_eq_openSessions (ho'.once c) fun t =>
    ⟨fun ht => ?_, fun ht => ht.tracked hs'⟩
  obtain ⟨hvalid, hcontext⟩ := ho'.own c t ht
  refine ⟨hvalid, hcontext, Bool.eq_false_iff.2 fun hclosed => ?_⟩
  obtain ⟨hv, hclosed₀⟩ := hkept t hvalid hcontext hclosed
  rw [hforgets t ht hv] at hclosed₀
  cases hclosed₀

end

/-! ## Open and closed sessions -/

/-- A scanner session that is open: it owns its one handle and finds its scanner object, it can be
closed, and its context is open as well and tracks it once. -/
structure World.Serves (s : ScannerId) (w : World) : Prop where
  handles : (w.scanner s).custodian.liveHandles = 1
  clones : (w.scanner s).clones ≠ 0
  object : ∃ r, ∀ E, s.object E w = (.ok r, w)
  close : ∀ E, s.close E w = (.ok (), (World.closeScanner s w).2)
  context : (w.context (w.scanner s).context).custodian.closed = false
  tracked : (w.context (w.scanner s).context).custodian.resources.count s = 1

/-- A scanner session that is closed: it owns nothing, whatever needs its scanner object is refused, and
it cannot be closed again. -/
structure World.Declines (s : ScannerId) (w : World) : Prop where
  handles : (w.scanner s).custodian.liveHandles = 0
  object : s.object.Refused (· = .lifetime (.useAfterClose "scanner")) w
  queries : ∀ q : Query, q.scans = true →
    (q.answer (.scanner s)).Refused (· = .lifetime (.useAfterClose "scanner")) w
  close : ∀ E, s.close E w = (.error (.failed (.lifetime (.closedTwice "scanner"))), w)

section

variable {F : Multiset Reference} {w : World} {s : ScannerId}

theorem World.serves_of_open (hs : w.Sound F) (ho : w.Orderly) (hv : s.index < w.scanners.size)
    (hopen : (w.scanner s).custodian.closed = false) : w.Serves s := by
  have hon : w.OpenOn s (w.scanner s).context := ⟨hv, rfl, hopen⟩
  obtain ⟨hclones, r, hslots⟩ := (ho.sessions s hv).full hopen
  have hget : (w.scanner s).custodian.get (w.scanner s).handle = .ok (.object r) := by
    rw [(ho.sessions s hv).handle, Custodian.get, if_neg (by simp [hopen]), hslots]
    rfl
  refine ⟨?_, hclones, ⟨r, fun E => ?_⟩, fun E => ?_, hon.context_open hs, ?_⟩
  · rw [Custodian.liveHandles, hslots]
    rfl
  · rw [ScannerId.object, world_bind, hget]
    rfl
  · simp only [ScannerId.close, bind_eq, act_apply, (World.closeScanner_of_open hopen).1]
    rfl
  · exact List.count_eq_one_of_mem (ho.once _) (hon.tracked hs)

theorem World.declines_of_closed (ho : w.Orderly) (hv : s.index < w.scanners.size)
    (hclosed : (w.scanner s).custodian.closed = true) : w.Declines s := by
  have hname := (ho.sessions s hv).name
  have hlapse (root : SessionError) (h : (w.scanner s).Lapse root) :
      root = .lifetime (.useAfterClose "scanner") := hname ▸ h
  refine ⟨?_, ?_, fun q hq => ?_, fun E => ?_⟩
  · rw [Custodian.liveHandles, (ho.sessions s hv).empty hclosed]
    rfl
  · exact (Query.scannerObject_refused hclosed).mono hlapse
  · exact (Query.onScanner_refused hclosed hq).mono hlapse
  · rw [Query.scannerClose_closed hclosed, hname]

/-- What closes a session on behalf of its context or of its last clone does not fail. -/
theorem World.closeTracked_ok (s : ScannerId) (w : World) : (World.closeTracked s w).1 = .ok () := by
  have hrun : World.closeTracked s w = (if (w.scanner s).custodian.closed then pure (.ok ())
    else World.closeScanner s) w := rfl
  cases hc : (w.scanner s).custodian.closed with
  | true =>
    rw [hrun, hc]
    rfl
  | false =>
    rw [hrun, hc]
    exact (World.closeScanner_of_open hc).1

end

namespace Session

section

variable {heap : Heap}

theorem moves_orderly {F : Multiset Reference} {w : World} (hm : Moves 0 (World.ofHeap heap) F w) :
    w.Sound F ∧ w.Orderly :=
  ⟨(hm.sound_later Holdings.empty_sound).1,
    (hm.orderly_later Holdings.empty_sound Holdings.empty_orderly).1⟩

theorem Reached.orderly {h : Holdings} (hr : Reached heap h) : ∃ F, h.Sound F ∧ h.Orderly := by
  obtain ⟨F, w, hm, rfl⟩ := hr
  exact ⟨F, moves_orderly hm⟩

end

variable (fuel : Nat) (heap : Heap) (scripts : List Script) (steps : List Step)

/-- A heap with a parse result whose scanner factory makes scanner objects. -/
def scannerHeap : Heap :=
  let reference (name : String) (i : Nat) : PropertyDescription :=
    ⟨.ofString name, .value (.object ⟨i⟩), true⟩
  .ofDescriptions
    [⟨"program", .plain, []⟩, ⟨"checker", .plain, []⟩,
      ⟨"createScanner", .function (.scanner (.argument 0)), []⟩,
      ⟨"getNodeId", .function (.value (.int 7)), []⟩, ⟨"syntaxKinds", .plain, []⟩,
      ⟨"parse", .plain, [reference "program" 0, reference "checker" 1,
        reference "createScanner" 2, reference "getNodeId" 3, reference "syntaxKinds" 4]⟩] #[]

/-- Opens a context and three scanner sessions, closes the first of them and drops the last. -/
def scannerSteps : List Step :=
  [.mk (.open (.value (.object ⟨5⟩)) {}) "cx" (some "cx"),
    .mk (.scanner "x") "cx" (some "closed"),
    .mk (.scanner "y") "cx" (some "kept"),
    .mk (.scanner "z") "cx" (some "dropped"),
    .mk (.query "closed" .close) "cx" none,
    .mk (.drop "dropped") "cx" none]

def scannerWorld : World := last 3 scannerHeap [] scannerSteps

/-- An operation that keeps the context of the sample session alive opens one more scanner session. -/
def scannerOpening : Except (Stop SessionError) ScannerId × World :=
  (⟨0⟩ : ContextId).scanner "w" (Engine.ofFuel 3 stackSize)
    (World.take (.context ⟨0⟩) scannerWorld)

end Session

end ProxySession
