import ProxySession.Proofs.Moments

/-!
# The books on host failures

The failures of a context get tags that rise, and those that wait in it are the latest of them. A failure
that no longer waits never waits again. All this holds at every world that a session arrives at.
-/

namespace ProxySession

/-- The context after a failure of one of its host functions. -/
def Context.noting (φ : HostFailure) (cx : Context) : Context :=
  { cx with lastTag := φ.tag, pending := cx.pending ++ [φ] }

namespace World

/-- The failures of the host functions of a context, in the order in which they were thrown. -/
def failuresOf (c : ContextId) (w : World) : List HostFailure :=
  w.hostFailures.toList.filter fun φ => φ.context = c

/-- The books are in order. -/
structure Booked (w : World) : Prop where
  waiting : ∀ c, (w.context c).pending <:+ w.failuresOf c
  tags : ∀ φ ∈ w.hostFailures, φ.tag ≠ 0 ∧ φ.tag ≤ (w.context φ.context).lastTag
  rising : w.hostFailures.toList.Pairwise fun φ ψ => φ.context = ψ.context → φ.tag < ψ.tag
  errors : ∀ φ ∈ w.hostFailures, w.heap.isError (.object φ.exception) = true

/-- What the books at one time owe to those at an earlier one. -/
structure Onwards (w w' : World) : Prop where
  record : w.hostFailures.toList <+: w'.hostFailures.toList
  waiting : ∀ c, ∀ φ ∈ (w'.context c).pending, φ ∈ (w.context c).pending ∨ φ ∉ w.hostFailures
  heap : w.heap.Evolves w'.heap

variable {w w' w'' : World} {c : ContextId} {φ ψ : HostFailure}

theorem Onwards.refl (w : World) : w.Onwards w := ⟨List.prefix_rfl, fun _ _ => .inl, .refl _⟩

theorem Onwards.mem (h : w.Onwards w') (hφ : φ ∈ w.hostFailures) : φ ∈ w'.hostFailures :=
  Array.mem_toList_iff.1 (h.record.subset (Array.mem_toList_iff.2 hφ))

theorem Onwards.trans (h₁ : w.Onwards w') (h₂ : w'.Onwards w'') : w.Onwards w'' where
  record := h₁.record.trans h₂.record
  waiting c φ hφ := by
    rcases h₂.waiting c φ hφ with hφ | hφ
    · exact h₁.waiting c φ hφ
    · exact .inr fun hold => hφ (h₁.mem hold)
  heap := h₁.heap.trans h₂.heap

/-- A failure that does not wait any more never waits again. -/
theorem Onwards.over (h : w.Onwards w') (hφ : φ ∈ w.hostFailures)
    (hover : φ ∉ (w.context c).pending) : φ ∉ (w'.context c).pending := by
  intro hwaits
  rcases h.waiting c φ hwaits with hw | hnew
  · exact hover hw
  · exact hnew hφ

namespace Booked

theorem mem_failuresOf : φ ∈ w.failuresOf c ↔ φ ∈ w.hostFailures ∧ φ.context = c := by
  simp [failuresOf]

theorem of_waiting (hb : w.Booked) (hφ : φ ∈ (w.context c).pending) :
    φ ∈ w.hostFailures ∧ φ.context = c :=
  mem_failuresOf.1 ((hb.waiting c).subset hφ)

/-- Two failures of a context with one tag are one. -/
theorem eq_of_tag (hb : w.Booked) (hφ : φ ∈ w.hostFailures) (hψ : ψ ∈ w.hostFailures)
    (hc : φ.context = ψ.context) (ht : φ.tag = ψ.tag) : φ = ψ := by
  obtain ⟨i, hi, rfl⟩ := List.getElem_of_mem (Array.mem_toList_iff.2 hφ)
  obtain ⟨j, hj, rfl⟩ := List.getElem_of_mem (Array.mem_toList_iff.2 hψ)
  have hrising := List.pairwise_iff_getElem.1 hb.rising
  rcases Nat.lt_trichotomy i j with hij | rfl | hij
  · exact absurd ht (Nat.ne_of_lt (hrising i j hi hj hij hc))
  · rfl
  · exact absurd ht.symm (Nat.ne_of_lt (hrising j i hj hi hij hc.symm))

end Booked

/-! ## One transition -/

theorem Calm.booked (h : w.Calm w') (hb : w.Booked) : w'.Booked where
  waiting c := by
    have hp : (w'.context c).pending = (w.context c).pending := congrArg Prod.fst (h.books.books c)
    rw [hp, failuresOf, h.failures]
    exact hb.waiting c
  tags φ hφ := by
    have ht : (w'.context φ.context).lastTag = (w.context φ.context).lastTag :=
      congrArg Prod.snd (h.books.books φ.context)
    rw [ht]
    exact hb.tags φ (h.failures ▸ hφ)
  rising := by
    rw [h.failures]
    exact hb.rising
  errors φ hφ := h.heap.isError (hb.errors φ (h.failures ▸ hφ))

theorem Calm.onwards (h : w.Calm w') : w.Onwards w' where
  record := by rw [h.failures]
  waiting c φ hφ := by
    have hp : (w'.context c).pending = (w.context c).pending := congrArg Prod.fst (h.books.books c)
    exact .inl (hp ▸ hφ)
  heap := h.heap

theorem settled_context (c d : ContextId) (w : World) : (w.settled c).context d =
    if c = d ∧ d.index < w.contexts.size then { w.context d with pending := [] }
    else w.context d :=
  Holdings.context_modifyContext c d (fun cx => { cx with pending := [] }) w.toHoldings

@[simp] theorem settled_pending (c : ContextId) (w : World) : ((w.settled c).context c).pending = [] := by
  rw [settled_context]
  split
  · rfl
  · next hn =>
    have hd : w.context c = default :=
      getD_of_size_le (Nat.le_of_not_lt fun hv => hn ⟨rfl, hv⟩)
    rw [hd]
    rfl

theorem settled_lastTag (c d : ContextId) (w : World) :
    ((w.settled c).context d).lastTag = (w.context d).lastTag := by
  rw [settled_context]
  split <;> rfl

theorem settled_waiting (c d : ContextId) (w : World) :
    ((w.settled c).context d).pending = (w.context d).pending ∨
      ((w.settled c).context d).pending = [] := by
  rw [settled_context]
  split
  · exact .inr rfl
  · exact .inl rfl

theorem Booked.settled (hb : w.Booked) (c : ContextId) : (w.settled c).Booked where
  waiting d := by
    rcases settled_waiting c d w with hp | hp
    · rw [hp]
      exact hb.waiting d
    · rw [hp]
      exact List.nil_suffix
  tags φ hφ := by
    rw [settled_lastTag]
    exact hb.tags φ hφ
  rising := hb.rising
  errors := hb.errors

theorem onwards_settled (c : ContextId) (w : World) : w.Onwards (w.settled c) where
  record := List.prefix_rfl
  waiting d φ hφ := by
    rcases settled_waiting c d w with hp | hp
    · exact .inl (hp ▸ hφ)
    · rw [hp] at hφ
      cases hφ
  heap := .refl _

theorem record_context (e : SessionError) (r : ObjectRef) (hv : c.index < w.contexts.size)
    (d : ContextId) : (w.recordHostFailure (w.nextFailure c e r)).context d =
      if c = d then (w.context c).noting (w.nextFailure c e r) else w.context d := by
  have hm := Holdings.context_modifyContext c d (Context.noting (w.nextFailure c e r)) w.toHoldings
  refine hm.trans ?_
  by_cases hcd : c = d
  · subst hcd
    rw [if_pos ⟨rfl, hv⟩, if_pos rfl]
  · rw [if_neg fun h => hcd h.1, if_neg hcd]

@[simp] theorem record_hostFailures (φ : HostFailure) (w : World) :
    (w.recordHostFailure φ).hostFailures = w.hostFailures.push φ := rfl

/-- The new failure is the last one of its context. -/
theorem record_failuresOf (e : SessionError) (r : ObjectRef) (d : ContextId) :
    (w.recordHostFailure (w.nextFailure c e r)).failuresOf d =
      if c = d then w.failuresOf d ++ [w.nextFailure c e r] else w.failuresOf d := by
  rw [failuresOf, record_hostFailures, Array.toList_push, List.filter_append]
  by_cases hcd : c = d
  · simp [failuresOf, nextFailure, hcd]
  · simp [failuresOf, nextFailure, hcd]

theorem Booked.record (hb : w.Booked) {e : SessionError} {r : ObjectRef}
    (hv : c.index < w.contexts.size) (hr : w.heap.isError (.object r) = true) :
    (w.recordHostFailure (w.nextFailure c e r)).Booked where
  waiting d := by
    rw [record_context e r hv, record_failuresOf]
    by_cases hcd : c = d
    · subst hcd
      rw [if_pos rfl, if_pos rfl]
      obtain ⟨before, hbefore⟩ := hb.waiting c
      exact ⟨before, by rw [Context.noting, ← List.append_assoc, hbefore]⟩
    · rw [if_neg hcd, if_neg hcd]
      exact hb.waiting d
  tags φ hφ := by
    rw [record_context e r hv]
    rcases Array.mem_push.1 hφ with hφ | rfl
    · have ht := hb.tags φ hφ
      split
      · next hc =>
        rw [hc]
        exact ⟨ht.1, Nat.le_succ_of_le ht.2⟩
      · exact ht
    · refine ⟨Nat.succ_ne_zero _, ?_⟩
      rw [if_pos (by rfl)]
      exact Nat.le_refl _
  rising := by
    rw [record_hostFailures, Array.toList_push, List.pairwise_append]
    refine ⟨hb.rising, List.pairwise_singleton _ _, fun φ hφ ψ hψ hc => ?_⟩
    rw [List.mem_singleton.1 hψ] at hc ⊢
    have ht := (hb.tags φ (Array.mem_toList_iff.1 hφ)).2
    rw [hc] at ht
    exact Nat.lt_succ_of_le ht
  errors φ hφ := by
    rcases Array.mem_push.1 hφ with hφ | rfl
    · exact hb.errors φ hφ
    · exact hr

theorem Booked.onwards_record (hb : w.Booked) {e : SessionError} {r : ObjectRef}
    (hv : c.index < w.contexts.size) : w.Onwards (w.recordHostFailure (w.nextFailure c e r)) where
  record := by
    rw [record_hostFailures, Array.toList_push]
    exact List.prefix_append _ _
  waiting d φ hφ := by
    rw [record_context e r hv] at hφ
    split at hφ
    · next hcd =>
      subst hcd
      rcases List.mem_append.1 hφ with hφ | hφ
      · exact .inl hφ
      · refine .inr fun hold => ?_
        have ht := (hb.tags φ hold).2
        rw [List.mem_singleton.1 hφ] at ht
        exact absurd ht (Nat.not_succ_le_self _)
    · exact .inl hφ
  heap := .refl _

theorem ofHeap_booked (heap : Heap) : (World.ofHeap heap).Booked where
  waiting _ := List.nil_suffix
  tags φ hφ := absurd hφ (Array.not_mem_empty φ)
  rising := List.Pairwise.nil
  errors φ hφ := absurd hφ (Array.not_mem_empty φ)

end World

/-! ## Runs of transitions -/

/-- What is kept while nothing is put in the books, when a context settles and when a failure is recorded, a
run of transitions keeps. -/
theorem Transitions.preserves {P : World → Prop} {F F' : Multiset Reference} {w w' : World}
    (hrun : Transitions F w F' w') (hs : w.Sound F) (hstart : P w)
    (hcalm : ∀ {v v' : World}, v.Calm v' → P v → P v')
    (hsettle : ∀ (c : ContextId) {v : World}, P v → P (v.settled c))
    (hrecord : ∀ {c : ContextId} (e : SessionError) (r : ObjectRef) {v : World}, c.index < v.contexts.size →
      v.heap.isError (.object r) = true → P v → P (v.recordHostFailure (v.nextFailure c e r))) : P w' := by
  have hsteps {p : Multiset Reference × World} (hp : Relation.ReflTransGen Transition (F, w) p) : P p.2 := by
    induction hp with
    | refl => exact hstart
    | tail hbefore htransition ih =>
      cases htransition with
      | move _ hc => exact hcalm hc ih
      | settle c => exact hsettle c ih
      | fail e r hc hr =>
        have hsound := ((Transitions.moves hbefore).sound_later hs).1
        exact hrecord e r (Holdings.valid_of_owned hsound hc) hr ih
  exact hsteps hrun

/-- A run of transitions keeps the books in order. -/
theorem Transitions.booked_onwards {F F' : Multiset Reference} {w w' : World} (hrun : Transitions F w F' w')
    (hs : w.Sound F) (hb : w.Booked) : w'.Booked ∧ w.Onwards w' := by
  refine hrun.preserves (P := fun v => v.Booked ∧ w.Onwards v) hs ⟨hb, .refl w⟩ ?calm ?settle ?record
  case calm => exact fun hc ⟨hbooked, honwards⟩ => ⟨hc.booked hbooked, honwards.trans hc.onwards⟩
  case settle =>
    exact fun c _ ⟨hbooked, honwards⟩ => ⟨hbooked.settled c, honwards.trans (World.onwards_settled c _)⟩
  case record =>
    exact fun _ _ _ hv hr ⟨hbooked, honwards⟩ =>
      ⟨hbooked.record hv hr, honwards.trans (hbooked.onwards_record hv)⟩

namespace Session

/-- A world that a session over a heap can arrive at, also in the middle of an operation. -/
def Arrived (heap : Heap) (w : World) : Prop := ∃ F, Transitions 0 (World.ofHeap heap) F w

/-- Two worlds that a session over a heap can arrive at, one after the other. -/
def Passes (heap : Heap) (w w' : World) : Prop :=
  ∃ F F', Transitions 0 (World.ofHeap heap) F w ∧ Transitions F w F' w'

variable {heap : Heap} {w w' : World}

theorem Arrived.booked (h : Arrived heap w) : w.Booked := by
  obtain ⟨F, hrun⟩ := h
  exact (hrun.booked_onwards Holdings.empty_sound (World.ofHeap_booked heap)).1

theorem Arrived.refl (h : Arrived heap w) : Passes heap w w := by
  obtain ⟨F, hrun⟩ := h
  exact ⟨F, F, hrun, .refl⟩

theorem Passes.arrived (h : Passes heap w w') : Arrived heap w' := by
  obtain ⟨F, F', hrun, hrun'⟩ := h
  exact ⟨F', hrun.trans hrun'⟩

theorem Passes.onwards (h : Passes heap w w') : w.Onwards w' := by
  obtain ⟨F, F', hrun, hrun'⟩ := h
  have hsound := (hrun.moves.sound_later Holdings.empty_sound).1
  have hbooked := (hrun.booked_onwards Holdings.empty_sound (World.ofHeap_booked heap)).1
  exact (hrun'.booked_onwards hsound hbooked).2

/-- An effect that owns nothing, as foreign code does, leads from one world to another. -/
theorem Arrived.passes {ε α : Type} (h : Arrived heap w) {x : Effect ε α} (hx : x.Neutral [])
    (fuel room : Nat) : Passes heap w (x (Engine.ofFuel fuel room) w).2 := by
  obtain ⟨F, hrun⟩ := h
  exact ⟨F, F, hrun, (hx _ (Engine.ofFuel_sound fuel room) F w (by simp)).transitions⟩

theorem last_arrived {fuel : Nat} {scripts : List Script} {steps : List Step} :
    Arrived heap (last fuel heap scripts steps) :=
  ⟨0, last_transitions⟩

end Session

end ProxySession
