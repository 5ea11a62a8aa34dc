import ProxySession.Proofs.Resurfacing

/-!
# Attribution of errors

A failure of a host function is thrown as a new error object that shows the failure's tag. As long as the
tags in the heap are where they were put, an error that comes back from foreign code is that of the
failure whose exception escaped.
-/

namespace ProxySession

open Effect

variable {c : ContextId} {E : Engine} {w w₁ : World} {φ ψ : HostFailure}

/-! ## The exception of a failure -/

theorem Object.find_putProperty (p : Property) (ps : List Property) :
    (putProperty p ps).find? (fun q => q.key = p.key) = some p := by
  induction ps with
  | nil => simp [putProperty]
  | cons q rest ih =>
    rw [putProperty]
    split
    · simp
    · next hne => simp [hne, ih]

theorem Object.lookup_define {o : Object} (hk : o.kind = .error) (p : Property) :
    (o.define p).lookup p.key = some p.content := by
  have hd : o.define p = { o with properties := putProperty p o.properties } := by
    rw [define, hk]
  rw [hd, lookup, own?, intrinsic?]
  simp [hk, find_putProperty]

theorem Heap.lookup_own {h : Heap} {r : ObjectRef} {key : PropertyKey} {x : Content}
    (hx : (h.object r).lookup key = some x) : h.lookup r key = some x := by
  rw [lookup, lineage, List.findSome?_cons, hx]

theorem throwTagged_run (φ : HostFailure) (E : Engine)
    (hr : w.heap.isError (.object φ.exception) = true) :
    ∃ w', throwTagged φ E w = (.error (.failed (.object φ.exception)), w') ∧
      w'.hostFailures = w.hostFailures ∧ φ.Intact w'.heap := by
  let tag : Property := ⟨ContextId.tagProperty, .data (.ofBinary64 (.ofInt φ.tag)), true⟩
  have hk := Heap.kind_of_isError hr
  have hfixed : (w.heap.object φ.exception).isFixed ContextId.tagProperty = false := by
    simp [Object.isFixed, Object.intrinsic?, hk]
  have hset : Eval.setProperty φ.exception ContextId.tagProperty (.ofBinary64 (.ofInt φ.tag)) E w =
      (.ok (), { w with heap := w.heap.update φ.exception fun o => o.define tag }) := by
    rw [Eval.setProperty, Eval.defineProperty, bind_eq]
    change (if (w.heap.object φ.exception).isFixed ContextId.tagProperty = true then _ else _ :
      Eval Unit) E w = _
    rw [if_neg (by rw [hfixed]; exact Bool.false_ne_true)]
    rfl
  refine ⟨{ w with heap := w.heap.update φ.exception fun o => o.define tag }, ?_, rfl, ?_⟩
  · rw [throwTagged, bind_eq, hset]
    rfl
  · have ho : (w.heap.update φ.exception fun o => o.define tag).object φ.exception =
        (w.heap.object φ.exception).define tag := by
      refine (getD_modify w.heap.objects _ _ _).trans (if_pos ⟨rfl, Heap.size_of_isError hr⟩)
    refine Heap.lookup_own ?_
    rw [ho]
    exact Object.lookup_define hk tag

/-- A failure of a host function throws a new error object, which stands for it alone and shows its
tag. -/
theorem throwHostFailure_throws (c : ContextId) (e : SessionError) (E : Engine) (w : World) :
    ∃ φ w', throwHostFailure c e E w = (.error (.failed (.object φ.exception)), w') ∧
      φ.context = c ∧ φ.error = e ∧ φ ∈ w'.hostFailures ∧ φ.Intact w'.heap := by
  obtain ⟨r, w₁, _, hr, hrun⟩ := throwHostFailure_run c e E w
  have hr' : (w₁.recordHostFailure (w₁.nextFailure c e r)).heap.isError (.object r) = true := hr
  obtain ⟨w', hthrow, hfailures, hi⟩ := throwTagged_run (w₁.nextFailure c e r) E hr'
  refine ⟨w₁.nextFailure c e r, w', hrun.trans hthrow, rfl, rfl, ?_, hi⟩
  rw [hfailures]
  exact Array.mem_push_self

/-! ## The law -/

/-- The tags in the heap are where they were put: each failure's exception shows the failure's tag, and
no other error shows one, not even one that it inherits. -/
structure World.Tagged (w : World) : Prop where
  intact : ∀ φ ∈ w.hostFailures, φ.Intact w.heap
  others : ∀ i < w.heap.objects.size, w.heap.isError (.object ⟨i⟩) = true →
    (∀ φ ∈ w.hostFailures, φ.exception ≠ ⟨i⟩) →
      w.heap.lookup ⟨i⟩ ContextId.tagProperty = none

/-- Failures of one context that have one exception are one. -/
theorem World.Booked.eq_of_exception (hb : w.Booked) (hcount : (w.context c).lastTag ≤ 2 ^ 53)
    (hφ : φ ∈ w.hostFailures) (hψ : ψ ∈ w.hostFailures) (hφc : φ.context = c) (hψc : ψ.context = c)
    (hiφ : φ.Intact w.heap) (hiψ : ψ.Intact w.heap) (heq : ψ.exception = φ.exception) : ψ = φ := by
  obtain ⟨h0, hle⟩ := hb.tags φ hφ
  obtain ⟨h0', hle'⟩ := hb.tags ψ hψ
  rw [hφc] at hle
  rw [hψc] at hle'
  rw [HostFailure.Intact, heq, hiφ] at hiψ
  have hvalues := Content.data.inj (Option.some.inj hiψ)
  have hnumbers := congrArg Value.number? hvalues
  rw [Value.number_ofBinary64_ofInt h0' (hle'.trans hcount),
    Value.number_ofBinary64_ofInt h0 (hle.trans hcount), Option.some.injEq] at hnumbers
  have hints := congrArg Binary64.toInt? hnumbers
  rw [Binary64.toInt_ofInt h0' (hle'.trans hcount), Binary64.toInt_ofInt h0 (hle.trans hcount)] at hints
  exact hb.eq_of_tag hψ hφ (hψc.trans hφc.symm) (by simpa using hints.symm)

namespace Session

variable {heap : Heap}

/-- If all failures are of one context and the tags are where they were put, then an operation of that
context from whose code a value escapes fails with the error of a failure that waits exactly if the value
is the exception of that failure, and otherwise with the foreign report of the value. -/
theorem failures_attributed (hw : Arrived heap w) (fuel room : Nat) (a : ForeignOperation)
    {thrown : Value}
    (hescape : a.code (Engine.ofFuel fuel room) w = (.error (.failed thrown), w₁))
    (hone : ∀ φ ∈ w₁.hostFailures, φ.context = c) (htags : w₁.Tagged)
    (hcount : (w₁.context c).lastTag ≤ 2 ^ 53) :
    (∃ φ ∈ (w₁.context c).pending, thrown = .object φ.exception ∧
      (∀ ψ ∈ w₁.hostFailures, ψ.exception = φ.exception → ψ = φ) ∧
        a.run c (Engine.ofFuel fuel room) w = (.error (.failed φ.error), w₁.settled c)) ∨
    ((∀ φ ∈ (w₁.context c).pending, thrown ≠ .object φ.exception) ∧
      a.run c (Engine.ofFuel fuel room) w =
        (Operation.reportForeign thrown : Operation Value) (Engine.ofFuel fuel room)
          (w₁.settled c)) := by
  have hb := (escape_passes hw hescape).arrived.booked
  have hrun := ForeignOperation.run_of_thrown (c := c) hescape
  have halone {φ ψ : HostFailure} (hφ : φ ∈ w₁.hostFailures) (hψ : ψ ∈ w₁.hostFailures)
      (heq : ψ.exception = φ.exception) : ψ = φ :=
    hb.eq_of_exception hcount hφ hψ (hone φ hφ) (hone ψ hψ) (htags.intact φ hφ) (htags.intact ψ hψ) heq
  by_cases hthrown : ∃ φ ∈ w₁.hostFailures, thrown = .object φ.exception
  · obtain ⟨φ, hφ, rfl⟩ := hthrown
    by_cases hwaits : φ ∈ (w₁.context c).pending
    · left
      rw [ContextId.foreignError_of_waiting hb hcount hφ (hone φ hφ) (htags.intact φ hφ) hwaits] at hrun
      exact ⟨φ, hwaits, rfl, fun ψ hψ heq => halone hφ hψ heq, hrun⟩
    · right
      rw [ContextId.foreignError_of_over hb hcount hφ (hone φ hφ) (htags.intact φ hφ) hwaits] at hrun
      refine ⟨fun ψ hψ heq => hwaits ?_, hrun⟩
      rwa [halone (hb.of_waiting hψ).1 hφ (Value.object.inj heq)]
  · right
    rw [ContextId.foreignError_of_untagged fun r hr he => ?_] at hrun
    · exact ⟨fun φ hφ heq => hthrown ⟨φ, (hb.of_waiting hφ).1, heq⟩, hrun⟩
    · exact htags.others r.index (Heap.size_of_isError he) he fun φ hφ heq =>
        hthrown ⟨φ, hφ, by rw [hr, heq]⟩

/-- The exception that escapes from the sample call is that of the one failure, which comes back. -/
theorem failures_attributed_sample :
    ∃ φ ∈ (rethrowingWorld (.object ⟨3⟩)).hostFailures, φ.error = .setup "refused" ∧
      (rethrowing (.object ⟨3⟩)).operation.run ⟨0⟩ (Engine.ofFuel 6 stackSize) troubledWorld =
        (.error (.failed φ.error), (rethrowingWorld (.object ⟨3⟩)).settled ⟨0⟩) := by
  have hfacts : ∃ φ ∈ (rethrowingWorld (.object ⟨3⟩)).hostFailures, φ.error = .setup "refused" ∧
      failure? ((rethrowing (.object ⟨3⟩)).operation.code troubledEngine troubledWorld).1 =
        some (.object φ.exception) ∧
      φ ∈ ((rethrowingWorld (.object ⟨3⟩)).context ⟨0⟩).pending := by
    decide +kernel
  have hworld : (∀ φ ∈ (rethrowingWorld (.object ⟨3⟩)).hostFailures,
        φ.context = ⟨0⟩ ∧ φ.Intact (rethrowingWorld (.object ⟨3⟩)).heap) ∧
      (∀ i < (rethrowingWorld (.object ⟨3⟩)).heap.objects.size,
        (rethrowingWorld (.object ⟨3⟩)).heap.isError (.object ⟨i⟩) = true →
          (∀ φ ∈ (rethrowingWorld (.object ⟨3⟩)).hostFailures, φ.exception ≠ ⟨i⟩) →
            (rethrowingWorld (.object ⟨3⟩)).heap.lookup ⟨i⟩ ContextId.tagProperty = none) ∧
      ((rethrowingWorld (.object ⟨3⟩)).context ⟨0⟩).lastTag ≤ 2 ^ 53 := by
    decide +kernel
  obtain ⟨hown, hothers, hcount⟩ := hworld
  obtain ⟨φ, hφ, herror, hescape, hwaits⟩ := hfacts
  have hcode : (rethrowing (.object ⟨3⟩)).operation.code (Engine.ofFuel 6 stackSize)
      troubledWorld =
        (.error (.failed (.object φ.exception)), rethrowingWorld (.object ⟨3⟩)) :=
    run_of_failure hescape
  rcases failures_attributed troubledWorld_arrived 6 stackSize
    (rethrowing (.object ⟨3⟩)).operation hcode (fun ψ hψ => (hown ψ hψ).1)
    ⟨fun ψ hψ => (hown ψ hψ).2, hothers⟩ hcount with
    ⟨ψ, _, heq, halone, hrun⟩ | ⟨hnone, _⟩
  · have hsame : φ = ψ := halone φ hφ (Value.object.inj heq)
    rw [← hsame] at hrun
    exact ⟨φ, hφ, herror, hrun⟩
  · exact absurd rfl (hnone φ hwaits)

/-- The call of the function that makes an error inherit from what it catches and throws it. -/
def impersonation : ForeignOperation := .method ⟨6⟩ "impersonate" [troubledValue "failing"]

def impersonationWorld : World := (impersonation.code troubledEngine troubledWorld).2

/-- An error that has no tag of its own, but inherits one, is taken for the exception that it inherits
from. -/
theorem impersonated_failure :
    (∀ φ ∈ impersonationWorld.hostFailures, φ.context = ⟨0⟩ ∧ φ.Intact impersonationWorld.heap ∧
      φ.exception ≠ ⟨12⟩) ∧
    (∀ i < impersonationWorld.heap.objects.size,
      (∀ φ ∈ impersonationWorld.hostFailures, φ.exception ≠ ⟨i⟩) →
        (impersonationWorld.heap.object ⟨i⟩).lookup ContextId.tagProperty = none) ∧
    failure? (impersonation.code troubledEngine troubledWorld).1 = some (.object ⟨12⟩) ∧
    failure? (impersonation.run ⟨0⟩ troubledEngine troubledWorld).1 = some (.setup "refused") := by
  decide +kernel

end Session

end ProxySession
