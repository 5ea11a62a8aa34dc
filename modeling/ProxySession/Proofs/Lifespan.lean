import ProxySession.Proofs.ContextReferences

/-!
# The lifespan of a context

A context ends once: when it is told to close, or when its last reference goes before that. Only the
second is warned of. What outlives the last reference gets nothing from the context any more.
-/

namespace ProxySession

open Effect

/-! ## One advance -/

namespace Advance

variable {F F' : Multiset Reference} {w w' : World} {es : List Ending} {c : ContextId}

theorem mem_toldTo {e : Ending} : e ∈ w.toldTo c ↔
    e = .told c ∧ c.index < w.contexts.size ∧ (w.context c).custodian.closed = false := by
  rw [World.toldTo]
  split
  · next h => simp [h]
  · next h => simp [h]

theorem mem_endedBy {r : Reference} {e : Ending} : e ∈ w.endedBy r ↔
    ∃ c, e = .abandoned c ∧ w.spends r = some c ∧ (w.context c).references ≤ 1 ∧
      (w.context c).custodian.closed = false := by
  rw [World.endedBy]
  cases w.spends r with
  | none => simp
  | some c =>
    rw [Option.elim_some, World.abandonedBy]
    split
    · next h => simp [h]
    · next h => simp [h]

/-- At most one context ends at a time. -/
theorem atMostOne (ha : Advance es (F, w) (F', w')) : es = [] ∨ ∃ e, es = [e] := by
  cases ha with
  | quiet _ _ _ => exact .inl rfl
  | tearDown d =>
    rw [World.toldTo]
    split
    · exact .inr ⟨_, rfl⟩
    · exact .inl rfl
  | giveBack r =>
    rw [World.endedBy]
    cases w.spends r with
    | none => exact .inl rfl
    | some d =>
      rw [Option.elim_some, World.abandonedBy]
      split
      · exact .inr ⟨_, rfl⟩
      · exact .inl rfl

theorem moves (ha : Advance es (F, w) (F', w')) : Moves F w F' w' := .single ha.transition.toMove

theorem sound (ha : Advance es (F, w) (F', w')) (hs : w.Sound F) : w'.Sound F' :=
  (ha.moves.sound_later hs).1

/-- What ends was open. -/
theorem was_open (ha : Advance es (F, w) (F', w')) {e : Ending} (he : e ∈ es) :
    (w.context e.context).custodian.closed = false := by
  cases ha with
  | quiet _ _ _ => cases he
  | tearDown d =>
    obtain ⟨rfl, _, ho⟩ := mem_toldTo.1 he
    exact ho
  | giveBack r =>
    obtain ⟨d, rfl, _, _, ho⟩ := mem_endedBy.1 he
    exact ho

/-- What ends is closed from then on, and nothing else is. -/
theorem closed_iff (ha : Advance es (F, w) (F', w')) (hs : w.Sound F) (c : ContextId) :
    (w'.context c).custodian.closed = true ↔
      (w.context c).custodian.closed = true ∨ c ∈ es.map Ending.context := by
  cases ha with
  | quiet _ _ ho => rw [ho c, List.map_nil, or_iff_left List.not_mem_nil]
  | tearDown d =>
    have hmem : c ∈ (w.toldTo d).map Ending.context ↔
        d = c ∧ c.index < w.contexts.size ∧ (w.context c).custodian.closed = false := by
      simp only [List.mem_map, mem_toldTo]
      constructor
      · rintro ⟨_, ⟨rfl, hd⟩, rfl⟩
        exact ⟨rfl, hd⟩
      · rintro ⟨rfl, hd⟩
        exact ⟨_, ⟨rfl, hd⟩, rfl⟩
    rw [(World.tearDown_becomes d w).holdings, Holdings.shutContext_closed_iff, hmem]
    cases (w.context c).custodian.closed <;> simp
  | giveBack r =>
    have hmem : c ∈ (w.endedBy r).map Ending.context ↔ w.spends r = some c ∧
        (w.context c).references ≤ 1 ∧ (w.context c).custodian.closed = false := by
      simp only [List.mem_map, mem_endedBy]
      constructor
      · rintro ⟨_, ⟨d, rfl, hd⟩, rfl⟩
        exact hd
      · intro hd
        exact ⟨_, ⟨c, rfl, hd⟩, rfl⟩
    rw [(World.giveBack_becomes r w).holdings, Holdings.giveBack_closed_iff, hmem]
    cases ho : (w.context c).custodian.closed with
    | true => simp
    | false =>
      have hv (hr : w.spends r = some c) : c.index < w.contexts.size :=
        Holdings.valid_of_count (r := .context c) (Holdings.spends_held hs hr)
      simp only [Bool.false_eq_true, false_or, and_true]
      exact ⟨fun h => ⟨h.1, h.2.2⟩, fun h => ⟨h.1, hv h.1, h.2⟩⟩

/-- The log warns of each context that is given up, and of nothing else. -/
theorem warnings (ha : Advance es (F, w) (F', w')) :
    w'.warnings = w.warnings + es.countP Ending.isAbandoned := by
  cases ha with
  | quiet _ hw _ => exact hw
  | tearDown d =>
    have hnone : (w.toldTo d).countP Ending.isAbandoned = 0 :=
      List.countP_eq_zero.2 fun e he => by
        obtain ⟨rfl, _⟩ := mem_toldTo.1 he
        simp [Ending.isAbandoned]
    rw [(World.tearDown_tacit d w).warnings, hnone, Nat.add_zero]
  | giveBack r =>
    have hall : (w.endedBy r).countP Ending.isAbandoned = (w.endedBy r).length :=
      List.countP_eq_length.2 fun e he => by
        obtain ⟨d, rfl, _⟩ := mem_endedBy.1 he
        rfl
    rw [World.giveBack_warnings, hall]

/-- A context is told to close by its first closing. -/
theorem told (ha : Advance es (F, w) (F', w')) (he : .told c ∈ es) :
    F' = F ∧ World.tearDown c w = (.ok (), w') := by
  cases ha with
  | quiet _ _ _ => cases he
  | tearDown d =>
    obtain ⟨heq, _, ho⟩ := mem_toldTo.1 he
    cases heq
    exact ⟨rfl, Prod.ext (World.tearDown_of_open ho).1 rfl⟩
  | giveBack r =>
    obtain ⟨d, heq, _⟩ := mem_endedBy.1 he
    cases heq

/-- A context is given up when its last reference goes while it is open. -/
theorem abandoned_iff (ha : Advance es (F, w) (F', w')) (hs : w.Sound F) (c : ContextId) :
    .abandoned c ∈ es ↔ (w.context c).custodian.closed = false ∧ (w.context c).references ≠ 0 ∧
      (w'.context c).references = 0 := by
  have hs' := ha.sound hs
  constructor
  · intro he
    have ho := ha.was_open he
    cases ha with
    | quiet _ _ _ => cases he
    | tearDown d =>
      have heq := (mem_toldTo.1 he).1
      cases heq
    | giveBack r =>
      obtain ⟨d, heq, hr, hle, _⟩ := mem_endedBy.1 he
      cases heq
      have hheld := Holdings.spends_held hs hr
      rw [(World.giveBack_becomes r w).holdings, Holdings.giveBack_references, if_pos hr]
      exact ⟨ho, hheld, by omega⟩
  · rintro ⟨ho, hheld, h0⟩
    have hv : c.index < w.contexts.size := Holdings.valid_of_count (r := .context c) hheld
    have hv' : c.index < w'.contexts.size := Nat.lt_of_lt_of_le hv ha.moves.size_le
    cases ha with
    | quiet _ _ hsame => exact absurd h0 (hs'.referenced c hv' ((hsame c).trans ho))
    | tearDown d =>
      rw [(World.tearDown_becomes d w).holdings, Holdings.shutContext_references] at h0
      exact absurd h0 hheld
    | giveBack r =>
      rw [(World.giveBack_becomes r w).holdings, Holdings.giveBack_references] at h0
      split at h0
      · next hr => exact mem_endedBy.2 ⟨c, rfl, hr, by omega, ho⟩
      · exact absurd h0 hheld

end Advance

/-! ## Runs -/

namespace Advances

variable {p q : Multiset Reference × World} {es : List Ending}

theorem warnings (h : Advances p es q) :
    q.2.warnings = p.2.warnings + es.countP Ending.isAbandoned := by
  induction h with
  | refl => rfl
  | tail _ hlast ih => rw [hlast.warnings, ih, List.countP_append, Nat.add_assoc]

end Advances

/-- The world with fresh records, as each report begins. -/
def World.cleared (w : World) : World := { w with crossings := #[], events := #[] }

/-- A context that nothing keeps alive, as the proxies and the lists that survive it see it. -/
structure World.Orphans (c : ContextId) (w : World) : Prop where
  /-- What is not at hand fails because the context was dropped. -/
  queries : ∀ item, Item.home? w.toHoldings item = some c → (∀ s, item ≠ .scanner s) →
    ∀ q : Query, q.isAtHand w.toHoldings item = false →
      (∀ w', (q.answer item).Senseless w') ∨
        (q.answer item).Refused (· = .lifetime .contextDropped) w
  /-- A walk through a list fails so at each element. -/
  elements : ∀ l, (w.list l).context = c → ∃ es : List SessionError,
    es.length = (w.list l).length ∧ (∀ e ∈ es, e.root = .lifetime .contextDropped) ∧
      ∀ E, ((w.list l).iterate : Operation (List (Except SessionError Node))) E w =
        (.ok (es.map .error), w)
  /-- Dropping a list does nothing but to count it. -/
  lists : ∀ l, (w.list l).context = c → World.giveBack (.list l) w =
    w.updateList l fun cell => { cell with clones := cell.clones - 1 }

theorem World.orphans_of_dropped {w : World} {c : ContextId}
    (hc : (w.context c).custodian.closed = true) (h0 : (w.context c).references = 0) :
    w.Orphans c where
  queries item hhome hi q hq :=
    (Query.answer_lapsed hhome hc hi q hq).imp_right fun hx =>
      hx.mono fun _ he => Query.Lapse.dropped he h0
  elements l hl := by
    subst hl
    obtain ⟨es, hlength, hes, hrun⟩ := Query.iterate_refused (l := w.list l) hc
    exact ⟨es, hlength, fun e he => (hes e he).2 h0, hrun⟩
  lists l hl := by
    let lowered := w.updateList l fun cell => { cell with clones := cell.clones - 1 }
    have hx : (lowered.list l).context = c := by
      have hm := Holdings.list_modifyList l l
        (fun cell => { cell with clones := cell.clones - 1 }) w.toHoldings
      change lowered.list l = _ at hm
      rw [hm]
      split <;> exact hl
    have hrelease : World.releaseList false l lowered = lowered := by
      have h0' : (lowered.context (lowered.list l).context).references = 0 := by
        rw [hx]
        exact h0
      exact if_pos (.inl h0')
    change (if (lowered.list l).clones = 0 then World.releaseList false l lowered else lowered) = lowered
    rw [hrelease]
    exact ite_self _

namespace Session

/-- How a session over a heap gets to a world, and the contexts that end on the way one after the
other. Each report begins with fresh records. -/
inductive Comes (heap : Heap) : List Ending → Multiset Reference → World → Prop
  | start : Comes heap [] 0 (World.ofHeap heap)
  | advance {es es' F F' w w'} (h : Comes heap es F w) (ha : Advance es' (F, w) (F', w')) :
    Comes heap (es ++ es') F' w'
  | clear {es F w} (h : Comes heap es F w) : Comes heap es F w.cleared

namespace Comes

variable {heap : Heap} {es es' : List Ending} {F F' : Multiset Reference} {w w' : World}

theorem transitions (h : Comes heap es F w) : Transitions 0 (World.ofHeap heap) F w := by
  induction h with
  | start => exact .refl
  | advance _ ha ih => exact ih.tail ha.transition
  | clear _ ih => exact ih.tail (.move (.still ⟨rfl, rfl⟩) ⟨.refl _, rfl, .refl _⟩)

theorem sound (h : Comes heap es F w) : w.Sound F :=
  (h.transitions.moves.sound_later Holdings.empty_sound).1

theorem advances (h : Comes heap es F w) (ha : Advances (F, w) es' (F', w')) :
    Comes heap (es ++ es') F' w' := by
  have hrun {es' : List Ending} {q : Multiset Reference × World} (hq : Advances (F, w) es' q) :
      Comes heap (es ++ es') q.1 q.2 := by
    induction hq with
    | refl => rwa [List.append_nil]
    | tail _ hlast ih =>
      rw [← List.append_assoc]
      exact ih.advance hlast
  exact hrun ha

/-- Each context that has ended is closed, and ended once. -/
theorem once (h : Comes heap es F w) : (es.map Ending.context).Nodup ∧
    ∀ c, (w.context c).custodian.closed = true ↔ c ∈ es.map Ending.context := by
  induction h with
  | start =>
    refine ⟨List.nodup_nil, fun c => ⟨fun hc => ?_, fun hc => absurd hc List.not_mem_nil⟩⟩
    exact absurd (Holdings.valid_of_closed hc) (Nat.not_lt_zero _)
  | clear _ ih => exact ih
  | @advance es es' F F' w w' h ha ih =>
    obtain ⟨hnodup, hclosed⟩ := ih
    rw [List.map_append]
    refine ⟨List.nodup_append.2 ⟨hnodup, ?_, fun c hc d hd => ?_⟩, fun c => ?_⟩
    · rcases ha.atMostOne with rfl | ⟨e, rfl⟩ <;> simp
    -- A context ends while it is open, and those that have ended are closed.
    · obtain ⟨e, he, rfl⟩ := List.mem_map.1 hd
      rintro rfl
      have ho := ha.was_open he
      rw [(hclosed _).2 hc] at ho
      cases ho
    · rw [ha.closed_iff h.sound, List.mem_append, hclosed]

/-- A context that is there without references has ended. -/
theorem closed_of_dropped (h : Comes heap es F w) {c : ContextId} (hv : c.index < w.contexts.size)
    (h0 : (w.context c).references = 0) : (w.context c).custodian.closed = true := by
  by_contra hc
  exact h.sound.referenced c hv (by simpa using hc) h0

end Comes

/-! ## Reports -/

/-- The number of warnings in reports that a context was given up. -/
def warnings (rs : List Report) : Nat :=
  (rs.flatMap fun r => r.events.toList).countP LogEvent.isAbandonment

theorem warnings_append (rs rs' : List Report) :
    warnings (rs ++ rs') = warnings rs + warnings rs' := by
  rw [warnings, List.flatMap_append, List.countP_append, warnings, warnings]

section

variable {engine : Engine} {heap : Heap} {es : List Ending} {w : World}

theorem report_comes (he : engine.Sound) {x : Operation Shown} (hx : x.Neutral [])
    (context : Option String) (h : Comes heap es 0 w) :
    ∃ es', Comes heap (es ++ es') 0 (report engine x context w).2 ∧
      warnings [(report engine x context w).1] = es'.countP Ending.isAbandoned := by
  obtain ⟨es', ha⟩ := (hx engine he 0 w.cleared (List.nil_subset _)).advances
  refine ⟨es', h.clear.advances ha, ?_⟩
  have hw := ha.warnings
  rw [show (0, w.cleared).2.warnings = 0 from rfl, Nat.zero_add] at hw
  rw [warnings, List.flatMap_singleton, Array.countP_toList]
  exact hw

theorem runScripts_comes (he : engine.Sound) : (scripts : List Script) → {es : List Ending} →
    {w : World} → Comes heap es 0 w →
      ∃ es', Comes heap (es ++ es') 0 (runScripts engine scripts w).2 ∧
        warnings (runScripts engine scripts w).1 = es'.countP Ending.isAbandoned
  | [], es, w, h => ⟨[], by rwa [List.append_nil], rfl⟩
  | s :: rest, es, w, h => by
    obtain ⟨es₁, h₁, hw₁⟩ := report_comes he s.run_neutral none h
    obtain ⟨es₂, h₂, hw₂⟩ := runScripts_comes he rest h₁
    refine ⟨es₁ ++ es₂, by rwa [← List.append_assoc], ?_⟩
    rw [List.countP_append, ← hw₁, ← hw₂, ← warnings_append]
    rfl

theorem runSteps_comes (he : engine.Sound) : (steps : List Step) → {es : List Ending} →
    {w : World} → Comes heap es 0 w →
      ∃ es', Comes heap (es ++ es') 0 (runSteps engine steps w).2 ∧
        warnings (runSteps engine steps w).1 = es'.countP Ending.isAbandoned
  | [], es, w, h => ⟨[], by rwa [List.append_nil], rfl⟩
  | .mk command context store :: rest, es, w, h => by
    obtain ⟨es₁, h₁, hw₁⟩ :=
      report_comes he (Step.run_neutral (.mk command context store)) (some context) h
    obtain ⟨es₂, h₂, hw₂⟩ := runSteps_comes he rest h₁
    refine ⟨es₁ ++ es₂, by rwa [← List.append_assoc], ?_⟩
    rw [List.countP_append, ← hw₁, ← hw₂, ← warnings_append]
    rfl

end

/-- All reports of a run. -/
def reports (fuel : Nat) (heap : Heap) (scripts : List Script) (steps : List Step) : List Report :=
  (run fuel heap scripts steps).1 ++ (run fuel heap scripts steps).2

variable (fuel : Nat) (heap : Heap) (scripts : List Script) (steps : List Step)

theorem last_comes : ∃ es, Comes heap es 0 (last fuel heap scripts steps) ∧
    warnings (reports fuel heap scripts steps) = es.countP Ending.isAbandoned := by
  have he := Engine.ofFuel_sound fuel stackSize
  obtain ⟨es₁, h₁, hw₁⟩ := runScripts_comes he scripts (Comes.start : Comes heap [] 0 _)
  obtain ⟨es₂, h₂, hw₂⟩ := runSteps_comes he steps h₁
  refine ⟨es₁ ++ es₂, h₂, ?_⟩
  rw [List.countP_append, ← hw₁, ← hw₂, ← warnings_append]
  rfl

/-- The steps of the sample session before its closing, and then the variable of the context is
dropped. -/
def orphaningSteps : List Step := sampleSteps.take 6 ++ [.mk (.drop "cx") "cx" none]

end Session

end ProxySession
