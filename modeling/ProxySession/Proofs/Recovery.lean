import ProxySession.Proofs.Escapes

/-!
# Recovered failures

Once a call has returned or an operation has failed, the failures of host functions that were raised
before are over: no later operation fails with the error of one of them, even if its exception was saved
and escapes again. A read that succeeds ends nothing.
-/

namespace ProxySession

open Effect

theorem Operation.resurface_neutral {kept : List Reference} (thrown : Value)
    (φ : Option HostFailure) : (resurface thrown φ).Neutral kept := by
  unfold resurface reportForeign
  grind

namespace Session

variable {heap : Heap} {c : ContextId} {w w₁ w₂ w₃ : World} {φ : HostFailure}

/-- All failures of host functions that are on record are over for a context: an operation that fails
later fails with the error of a later failure, with a foreign error or because of what it called; and if
the exception of an earlier failure escapes from it, it reports that as foreign. -/
structure Cleared (heap : Heap) (c : ContextId) (w : World) : Prop where
  later : ∀ w₂, Passes heap w w₂ → ∀ (fuel room : Nat) (a : ForeignOperation) e w',
    a.run c (Engine.ofFuel fuel room) w₂ = (.error (.failed e), w') →
      (∃ ψ ∈ w'.hostFailures, ψ ∉ w.hostFailures ∧ ψ.context = c ∧ e = ψ.error) ∨
        (∃ text, e = .foreign text) ∨ ∃ actual, e = .shapeMismatch "function" actual
  saved : ∀ φ ∈ w.hostFailures, φ.context = c → ∀ w₂, Passes heap w w₂ →
    ∀ (fuel room : Nat) (a : ForeignOperation) w₃,
      a.code (Engine.ofFuel fuel room) w₂ = (.error (.failed (.object φ.exception)), w₃) →
        φ.Intact w₃.heap → (w₃.context c).lastTag ≤ 2 ^ 53 →
          a.run c (Engine.ofFuel fuel room) w₂ =
            (Operation.reportForeign (.object φ.exception) : Operation Value)
              (Engine.ofFuel fuel room) (w₃.settled c)

/-- Where nothing waits, all failures are over. -/
theorem Cleared.of_pending (hp : (w.context c).pending = []) : Cleared heap c w where
  later w₂ hpasses fuel room a e w' hrun := by
    rcases ForeignOperation.run_failed hrun with ⟨thrown, w₃, hescape⟩ | hactual
    · have hescaped := escape_passes hpasses.arrived hescape
      have hsince : w.Onwards w₃ := hpasses.onwards.trans hescaped.onwards
      rw [ForeignOperation.run_of_thrown hescape] at hrun
      rcases ContextId.foreignError_failed hrun with ⟨ψ, hψ, he⟩ | htext
      · -- It waited when the exception escaped, and nothing waited before.
        have hnew : ψ ∉ w.hostFailures := by
          rcases hsince.waiting c ψ hψ with hold | hnew
          · rw [hp] at hold
            cases hold
          · exact hnew
        obtain ⟨hrecord, hcontext⟩ := hescaped.arrived.booked.of_waiting hψ
        have hreport : (c.foreignError thrown >>= fail : Operation Value).Neutral [] := by grind
        have hreported := hescaped.arrived.passes hreport fuel room
        rw [hrun] at hreported
        exact .inl ⟨ψ, hreported.onwards.mem hrecord, hnew, hcontext, he⟩
      · exact .inr (.inl htext)
    · exact .inr (.inr hactual)
  saved φ hφ hcontext w₂ hpasses fuel room a w₃ hescape hi hcount := by
    have hescaped := escape_passes hpasses.arrived hescape
    have hsince : w.Onwards w₃ := hpasses.onwards.trans hescaped.onwards
    have hover : φ ∉ (w₃.context c).pending := hsince.over hφ (by
      rw [hp]
      exact List.not_mem_nil)
    rw [ForeignOperation.run_of_thrown hescape]
    exact ContextId.foreignError_of_over hescaped.arrived.booked hcount (hsince.mem hφ) hcontext hi
      hover

/-- After an operation that returned all failures so far are over if nothing waits, and after a call
nothing does. When an exception escapes from an operation, all failures up to then are over, whatever
comes of it. -/
theorem recovered_failures_over (heap : Heap) (fuel room : Nat) (c : ContextId)
    (a : ForeignOperation) (w : World) (hw : Arrived heap w) :
    (∀ v w₁, a.run c (Engine.ofFuel fuel room) w = (.ok v, w₁) →
      (a.isCall = true → (w₁.context c).pending = []) ∧
        ((w₁.context c).pending = [] → Cleared heap c w₁)) ∧
    (∀ thrown w₁, a.code (Engine.ofFuel fuel room) w = (.error (.failed thrown), w₁) →
      Passes heap (w₁.settled c) (a.run c (Engine.ofFuel fuel room) w).2 ∧
        Cleared heap c (w₁.settled c)) := by
  constructor
  · intro v w₁ hrun
    refine ⟨fun ha => ?_, .of_pending⟩
    obtain ⟨w₀, rfl⟩ := ForeignOperation.settled_of_ok ha hrun
    exact w₀.settled_pending c
  · intro thrown w₁ hescape
    obtain ⟨F, hbefore⟩ := (escape_passes hw hescape).arrived
    have hsettled : Arrived heap (w₁.settled c) := ⟨F, hbefore.tail (.settle c)⟩
    have hreport : (ContextId.thrownTag thrown >>= fun tag => Operation.resurface thrown
        ((w₁.context c).pending.find? (·.bears tag)) : Operation Value).Neutral [] :=
      Neutral.bind (ContextId.thrownTag_foreignActs thrown).neutral fun tag =>
        Operation.resurface_neutral thrown _
    rw [ForeignOperation.run_of_thrown hescape, ContextId.foreignError_run]
    exact ⟨hsettled.passes hreport fuel room, .of_pending (w₁.settled_pending c)⟩

/-- The call of a function that recovers from a failure and saves its exception. -/
def forgiving : ForeignOperation := .method ⟨6⟩ "forgive" [troubledValue "failing"]

def forgivenWorld : World := (forgiving.run ⟨0⟩ troubledEngine troubledWorld).2

def throwingSaved : ForeignOperation := .method ⟨6⟩ "throwSaved" []

def thrownAgain : World := (throwingSaved.code troubledEngine forgivenWorld).2

/-- The exception that a call recovered from is foreign when it escapes from the next one. -/
theorem recovered_failures_over_sample :
    (forgivenWorld.context ⟨0⟩).pending = [] ∧
    ∃ φ ∈ forgivenWorld.hostFailures, φ ∉ troubledWorld.hostFailures ∧ φ.error = .setup "refused" ∧
      ∃ w₃, throwingSaved.code (Engine.ofFuel 6 stackSize) forgivenWorld =
          (.error (.failed (.object φ.exception)), w₃) ∧
        throwingSaved.run ⟨0⟩ (Engine.ofFuel 6 stackSize) forgivenWorld =
          (Operation.reportForeign (.object φ.exception) : Operation Value)
            (Engine.ofFuel 6 stackSize) (w₃.settled ⟨0⟩) := by
  have hreturned : (forgiving.run ⟨0⟩ (Engine.ofFuel 6 stackSize) troubledWorld).1.toOption.isSome :=
    by decide +kernel
  obtain ⟨v, hv⟩ := Option.isSome_iff_exists.1 hreturned
  have hfacts : ∃ φ ∈ forgivenWorld.hostFailures, φ ∉ troubledWorld.hostFailures ∧
      φ.error = .setup "refused" ∧ φ.context = ⟨0⟩ ∧
      failure? (throwingSaved.code troubledEngine forgivenWorld).1 = some (.object φ.exception) ∧
      φ.Intact thrownAgain.heap ∧ (thrownAgain.context ⟨0⟩).lastTag ≤ 2 ^ 53 := by
    decide +kernel
  obtain ⟨φ, hφ, hnew, herror, hcontext, hescape, hi, hcount⟩ := hfacts
  obtain ⟨hcall, hover⟩ := (recovered_failures_over troubledHeap 6 stackSize ⟨0⟩ forgiving troubledWorld
    troubledWorld_arrived).1 v forgivenWorld (run_of_toOption hv)
  have hp := hcall rfl
  have harrived : Arrived troubledHeap forgivenWorld :=
    (troubledWorld_arrived.passes (forgiving.run_neutral ⟨0⟩) 6 stackSize).arrived
  have hcode : throwingSaved.code (Engine.ofFuel 6 stackSize) forgivenWorld =
      (.error (.failed (.object φ.exception)), thrownAgain) := run_of_failure hescape
  exact ⟨hp, φ, hφ, hnew, herror, thrownAgain, hcode,
    (hover hp).saved φ hφ hcontext forgivenWorld harrived.refl 6 stackSize throwingSaved thrownAgain
      hcode hi hcount⟩

/-- The read through a getter that recovers from a failure and saves its exception. -/
def recoveringRead : ForeignOperation := .property ⟨6⟩ "recovers"

def readWorld : World := (recoveringRead.run ⟨0⟩ troubledEngine troubledWorld).2

/-- The failure that a successful read recovered from still waits, and it is the error of the next
operation from which its exception escapes. -/
theorem read_failure_returns :
    (troubledWorld.context ⟨0⟩).pending = [] ∧
    (recoveringRead.run ⟨0⟩ troubledEngine troubledWorld).1.toOption.isSome ∧
    ∃ φ ∈ readWorld.hostFailures, φ ∉ troubledWorld.hostFailures ∧ φ.error = .setup "refused" ∧
      φ ∈ (readWorld.context ⟨0⟩).pending ∧
      failure? (throwingSaved.run ⟨0⟩ troubledEngine readWorld).1 = some φ.error := by
  decide +kernel

end Session

end ProxySession
