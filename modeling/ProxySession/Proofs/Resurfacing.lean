import ProxySession.Proofs.Waiting
import ProxySession.Session.Conversion

/-!
# Failures that resurface

When the exception of a host function's failure escapes from a call, the call fails with the very error
of the host function if the failure still waits, and with a foreign one if it does not. It waits unless
its context has settled since; while no host function has steps, no context does.
-/

namespace ProxySession

open Effect

variable {α : Type}

def Stop.map {ε δ : Type} (f : ε → δ) : Stop ε → Stop δ
  | .failed e => .failed (f e)
  | .exhausted => .exhausted
  | .senseless => .senseless

theorem Effect.located_of_error {x : Operation α} {E : Engine} {w w' : World}
    {stop : Stop SessionError} (site : String) (h : x E w = (.error stop, w')) :
    x.located site E w = (.error (stop.map (.located site)), w') := by
  rw [located, handle, bind_eq, attempt, h]
  cases stop <;> rfl

theorem Effect.located_eq (site : String) (x : Operation α) (E : Engine) (w : World) :
    x.located site E w = ((x E w).1.mapError (Stop.map (.located site)), (x E w).2) := by
  rcases hx : x E w with ⟨stop | a, w'⟩
  · exact located_of_error site hx
  · rw [located, handle, bind_eq, attempt, hx]
    rfl

/-! ## Calls -/

/-- A call of foreign code, whose result may be converted. -/
inductive ForeignCall : Type → Type 1 where
  | function (f : Value) (arguments : List Value) : ForeignCall Value
  | method (r : ObjectRef) (name : String) (arguments : List Value) : ForeignCall Value
  | invoke (r : ObjectRef) (name : String) (arguments : List Value) : ForeignCall Value
  | call {α : Type} (r : ObjectRef) (name : String) (arguments : List Value)
    (convert : Conversion α) : ForeignCall α
  | callNullable {α : Type} (r : ObjectRef) (name : String) (arguments : List Value)
    (convert : Conversion α) : ForeignCall (Option α)

namespace ForeignCall

/-- The call itself, without the conversion of the result. -/
def operation : ForeignCall α → ForeignOperation
  | function f arguments => .function f arguments
  | method r name arguments | invoke r name arguments | call r name arguments _
  | callNullable r name arguments _ => .method r name arguments

def run (c : ContextId) : ForeignCall α → Operation α
  | function f arguments => c.callFunction f arguments
  | method r name arguments => c.callMethod r name arguments
  | invoke r name arguments => c.invoke r name arguments
  | call r name arguments convert => c.call r name arguments convert
  | callNullable r name arguments convert => c.callNullable r name arguments convert

/-- An error under the site of the call, if it has one. -/
def placed : ForeignCall α → SessionError → SessionError
  | function _ _ | method _ _ _ => id
  | invoke _ name _ | call _ name _ _ | callNullable _ name _ _ => .located name

/-- The report of a thrown value: a foreign failure with the value's text. -/
def report (call : ForeignCall α) (thrown : Value) : Operation α := do
  fail (call.placed (.foreign (← Eval.thrownText thrown)))

variable {c : ContextId} {E : Engine} {w w₁ w₂ : World} {thrown : Value}

theorem run_of_error {call : ForeignCall α} {stop : Stop SessionError}
    (h : call.operation.run c E w = (.error stop, w₁)) :
    call.run c E w = (.error (stop.map call.placed), w₁) := by
  cases call with
  | function f arguments =>
    refine h.trans ?_
    cases stop <;> rfl
  | method r name arguments =>
    refine h.trans ?_
    cases stop <;> rfl
  | invoke r name arguments => exact located_of_error name h
  | call r name arguments convert => exact located_of_error name (bind_of_error h)
  | callNullable r name arguments convert => exact located_of_error name (bind_of_error h)

theorem run_of_report {call : ForeignCall α}
    (h : call.operation.run c E w = (Operation.reportForeign thrown : Operation Value) E w₁) :
    call.run c E w = call.report thrown E w₁ := by
  rw [Operation.reportForeign] at h
  rw [report]
  rcases htext : (Eval.thrownText thrown : Operation String) E w₁ with ⟨stop | text, w₂⟩
  · rw [bind_of_error htext] at h
    rw [bind_of_error htext, run_of_error h]
    cases stop with
    | failed e => exact absurd htext (Eval.thrownText_unfailing thrown _ _ _ _)
    | _ => rfl
  · rw [bind_of_ok htext] at h
    rw [bind_of_ok htext]
    exact run_of_error h

end ForeignCall

/-! ## The law -/

namespace Session

variable {heap : Heap} {w w₁ : World} {φ : HostFailure}

/-- If the exception of a failure of a context's host function escapes from a call of that context during
which the failure arose, then the call fails with the error of that failure exactly if it still waits.
It does, unless the context settled in between; so it does if no host function has steps. -/
theorem failures_resurface (hw : Arrived heap w) (fuel room : Nat) (call : ForeignCall α)
    (hescape : call.operation.code (Engine.ofFuel fuel room) w =
      (.error (.failed (.object φ.exception)), w₁))
    (hnew : φ ∉ w.hostFailures) (hφ : φ ∈ w₁.hostFailures) (hi : φ.Intact w₁.heap)
    (hcount : (w₁.context φ.context).lastTag ≤ 2 ^ 53) :
    (φ ∈ (w₁.context φ.context).pending →
      call.run φ.context (Engine.ofFuel fuel room) w =
        (.error (.failed (call.placed φ.error)), w₁.settled φ.context)) ∧
    (φ ∉ (w₁.context φ.context).pending →
      call.run φ.context (Engine.ofFuel fuel room) w =
          call.report (.object φ.exception) (Engine.ofFuel fuel room) (w₁.settled φ.context) ∧
        ∃ w₂, Passes heap w w₂ ∧ φ ∈ (w₂.context φ.context).pending ∧
          Passes heap (w₂.settled φ.context) w₁) ∧
    (w.Stepless → φ ∈ (w₁.context φ.context).pending) := by
  have hpasses := escape_passes hw hescape
  have hb := hpasses.arrived.booked
  have hrun := ForeignOperation.run_of_thrown (c := φ.context) hescape
  refine ⟨fun hwaits => ?_, fun hover => ⟨?_, ?_⟩, fun hs => ?_⟩
  · rw [ContextId.foreignError_of_waiting hb hcount hφ rfl hi hwaits] at hrun
    exact ForeignCall.run_of_error hrun
  · rw [ContextId.foreignError_of_over hb hcount hφ rfl hi hover] at hrun
    exact ForeignCall.run_of_report hrun
  · exact (hpasses.waits_or_settled hnew hφ).resolve_left hover
  · have hgathers := call.operation.code_foreign.gathers fuel room hs
    rw [hescape] at hgathers
    exact hgathers.raised φ hφ hnew

/-- The call of the function that throws again what it catches, after calling another one. -/
def rethrowing (other : Value) : ForeignCall Value :=
  .invoke ⟨6⟩ "rethrow" [troubledValue "failing", other]

def rethrowingWorld (other : Value) : World :=
  ((rethrowing other).operation.code troubledEngine troubledWorld).2

/-- A failure comes back as it was if the function in between calls nothing of the host. -/
theorem failures_resurface_sample :
    ∃ φ ∈ (rethrowingWorld (.object ⟨3⟩)).hostFailures, φ.error = .setup "refused" ∧
      φ ∉ troubledWorld.hostFailures ∧
      (rethrowing (.object ⟨3⟩)).run ⟨0⟩ troubledEngine troubledWorld =
        (.error (.failed (.located "rethrow" φ.error)),
          (rethrowingWorld (.object ⟨3⟩)).settled ⟨0⟩) := by
  have hfacts : ∃ φ ∈ (rethrowingWorld (.object ⟨3⟩)).hostFailures, φ.error = .setup "refused" ∧
      φ ∉ troubledWorld.hostFailures ∧ φ.context = ⟨0⟩ ∧
      failure? ((rethrowing (.object ⟨3⟩)).operation.code troubledEngine troubledWorld).1 =
        some (.object φ.exception) ∧
      φ.Intact (rethrowingWorld (.object ⟨3⟩)).heap ∧
      ((rethrowingWorld (.object ⟨3⟩)).context φ.context).lastTag ≤ 2 ^ 53 ∧
      φ ∈ ((rethrowingWorld (.object ⟨3⟩)).context φ.context).pending := by
    decide +kernel
  obtain ⟨φ, hφ, herror, hnew, hcontext, hescape, hi, hcount, hwaits⟩ := hfacts
  have hcode : (rethrowing (.object ⟨3⟩)).operation.code (Engine.ofFuel 6 stackSize)
      troubledWorld =
        (.error (.failed (.object φ.exception)), rethrowingWorld (.object ⟨3⟩)) :=
    run_of_failure hescape
  have hlaw := failures_resurface troubledWorld_arrived 6 stackSize (rethrowing (.object ⟨3⟩))
    hcode hnew hφ hi hcount
  have hrun := hlaw.1 hwaits
  rw [hcontext] at hrun
  exact ⟨φ, hφ, herror, hnew, hrun⟩

/-- A failure is lost if the function in between calls a host function that makes a call of its own: its
exception escapes, but the error is foreign. -/
theorem rethrown_failure_lost :
    ∃ φ ∈ (rethrowingWorld (troubledValue "asking")).hostFailures, φ.error = .setup "refused" ∧
      φ ∉ troubledWorld.hostFailures ∧ φ.context = ⟨0⟩ ∧
      φ.Intact (rethrowingWorld (troubledValue "asking")).heap ∧
      failure? ((rethrowing (troubledValue "asking")).operation.code troubledEngine
        troubledWorld).1 = some (.object φ.exception) ∧
      failure? ((rethrowing (troubledValue "asking")).run ⟨0⟩ troubledEngine
        troubledWorld).1 = some (.located "rethrow"
          (.foreign "Error: setup failed: refused\n    at <anonymous>\n")) := by
  decide +kernel

end Session

end ProxySession
