import ProxySession.Proofs.Resurfacing

/-!
# Failures of several contexts

Each context numbers the failures of its own host functions from one, and the exceptions of all of them
meet in one heap. The exception of a failure that escapes from a call of another context is taken for
that context's failure of the same number, if this one still waits; otherwise it is foreign.
-/

namespace ProxySession

open Effect

variable {w w' : World} {c d : ContextId} {φ ψ : HostFailure} {n : Nat}

/-! ## The numbers of failures -/

namespace World

/-- The failures of each context have the tags from one up to its last. -/
def Numbered (w : World) : Prop :=
  ∀ c, (w.failuresOf c).map HostFailure.tag = List.range' 1 (w.context c).lastTag

theorem ofHeap_numbered (heap : Heap) : (World.ofHeap heap).Numbered := fun _ => rfl

theorem Calm.numbered (h : w.Calm w') (hn : w.Numbered) : w'.Numbered := by
  intro c
  have ht : (w'.context c).lastTag = (w.context c).lastTag := congrArg Prod.snd (h.books.books c)
  rw [failuresOf, h.failures, ht]
  exact hn c

theorem Numbered.settled (hn : w.Numbered) (c : ContextId) : (w.settled c).Numbered := by
  intro d
  rw [settled_lastTag]
  exact hn d

theorem Numbered.record (hn : w.Numbered) {e : SessionError} {r : ObjectRef}
    (hv : c.index < w.contexts.size) : (w.recordHostFailure (w.nextFailure c e r)).Numbered := by
  intro d
  rw [record_failuresOf, record_context e r hv]
  split
  · next hcd =>
    subst hcd
    rw [List.map_append, hn c]
    change _ = List.range' 1 ((w.context c).lastTag + 1)
    rw [List.range'_concat, Nat.one_mul, Nat.add_comm 1]
    rfl
  · exact hn d

theorem Numbered.tag_eq (hn : w.Numbered) (hφ : (w.failuresOf c)[n]? = some φ) : φ.tag = n + 1 := by
  have hmap : ((w.failuresOf c).map HostFailure.tag)[n]? = some φ.tag := by
    rw [List.getElem?_map, hφ, Option.map_some]
  rw [hn c, List.getElem?_eq_some_iff] at hmap
  obtain ⟨hlt, hget⟩ := hmap
  rw [List.getElem_range', Nat.one_mul, Nat.add_comm] at hget
  exact hget.symm

/-- A failure is in the place that its tag says. -/
theorem Numbered.getElem_iff (hn : w.Numbered) (hψ : ψ ∈ w.failuresOf c) :
    (w.failuresOf c)[n]? = some ψ ↔ ψ.tag = n + 1 := by
  refine ⟨hn.tag_eq, fun ht => ?_⟩
  obtain ⟨m, hm⟩ := List.mem_iff_getElem?.1 hψ
  have hmn : m = n := Nat.succ.inj ((hn.tag_eq hm).symm.trans ht)
  rw [← hmn]
  exact hm

end World

theorem Transitions.numbered {F F' : Multiset Reference} (hrun : Transitions F w F' w') (hs : w.Sound F)
    (hn : w.Numbered) : w'.Numbered :=
  hrun.preserves (P := World.Numbered) hs hn (fun hc hnumbered => hc.numbered hnumbered)
    (fun c _ hnumbered => hnumbered.settled c) fun _ _ _ hv _ hnumbered => hnumbered.record hv

/-! ## The law -/

namespace ContextId

variable {E : Engine}

section

variable (hb : w.Booked) (hn : w.Numbered) (hc : (w.context c).lastTag ≤ 2 ^ 53)
  (hd : (w.context d).lastTag ≤ 2 ^ 53) (hφ : (w.failuresOf d)[n]? = some φ)

include hb hn hc hd hφ

/-- Among the failures that wait, the exception's tag finds the one that has its number. -/
theorem bears_number (hψ : ψ ∈ (w.context c).pending) :
    ψ.bears (some (.ofInt φ.tag)) = true ↔ (w.failuresOf c)[n]? = some ψ := by
  obtain ⟨hφ', hφd⟩ := World.Booked.mem_failuresOf.1 (List.mem_of_getElem? hφ)
  obtain ⟨hψ', hψc⟩ := hb.of_waiting hψ
  obtain ⟨h0, hle⟩ := hb.tags φ hφ'
  obtain ⟨h0', hle'⟩ := hb.tags ψ hψ'
  rw [hφd] at hle
  rw [hψc] at hle'
  rw [bears_ofInt h0 (hle.trans hd) h0' (hle'.trans hc),
    hn.getElem_iff (World.Booked.mem_failuresOf.2 ⟨hψ', hψc⟩), hn.tag_eq hφ]

variable (hi : φ.Intact w.heap)

include hi

theorem foreignError_namesake (hψ : ψ ∈ (w.context c).pending)
    (hsame : (w.failuresOf c)[n]? = some ψ) :
    (c.foreignError (.object φ.exception) >>= fail : Operation Value) E w =
      (.error (.failed ψ.error), w.settled c) := by
  obtain ⟨hφ', hφd⟩ := World.Booked.mem_failuresOf.1 (List.mem_of_getElem? hφ)
  rw [foreignError_intact hb (hφd ▸ hd) hφ' hi]
  rcases hfind : (w.context c).pending.find? (·.bears (some (.ofInt φ.tag))) with _ | χ
  · exact absurd ((bears_number hb hn hc hd hφ hψ).2 hsame) (List.find?_eq_none.1 hfind ψ hψ)
  · have hχ := (bears_number hb hn hc hd hφ (List.mem_of_find?_eq_some hfind)).1
      (List.find?_some hfind)
    rw [hfind, Option.some.inj (hχ.symm.trans hsame)]
    rfl

theorem foreignError_no_namesake
    (hnone : ∀ ψ ∈ (w.context c).pending, (w.failuresOf c)[n]? ≠ some ψ) :
    (c.foreignError (.object φ.exception) >>= fail : Operation Value) E w =
      (Operation.reportForeign (.object φ.exception) : Operation Value) E (w.settled c) := by
  obtain ⟨hφ', hφd⟩ := World.Booked.mem_failuresOf.1 (List.mem_of_getElem? hφ)
  have hfind : (w.context c).pending.find? (·.bears (some (.ofInt φ.tag))) = none :=
    List.find?_eq_none.2 fun ψ hψ ht => hnone ψ hψ ((bears_number hb hn hc hd hφ hψ).1 ht)
  rw [foreignError_intact hb (hφd ▸ hd) hφ' hi, hfind]
  rfl

end

end ContextId

namespace Session

variable {heap : Heap} {w₁ : World} {α : Type}

theorem Arrived.numbered (h : Arrived heap w) : w.Numbered := by
  obtain ⟨F, hrun⟩ := h
  exact hrun.numbered Holdings.empty_sound (World.ofHeap_numbered heap)

/-- What waits after an operation began without anything waiting are failures since. -/
theorem Passes.waits_since (h : Passes heap w w₁) (hp : (w.context c).pending = [])
    (hsame : w₁.failuresOf c = w.failuresOf c) : (w₁.context c).pending = [] := by
  refine List.eq_nil_iff_forall_not_mem.2 fun ψ hψ => ?_
  rcases h.onwards.waiting c ψ hψ with hold | hnew
  · rw [hp] at hold
    cases hold
  · have hψc := World.Booked.mem_failuresOf.2 (h.arrived.booked.of_waiting hψ)
    rw [hsame] at hψc
    exact hnew (World.Booked.mem_failuresOf.1 hψc).1

/-- If the exception of a context's failure number `n` escapes from a call of some context, then the call
fails with the error of the caller's own failure number `n` if there is one and it waits, and with the
foreign report of the exception if not. So it is foreign to a caller for which nothing waited before the
call and none of whose host functions failed during it. -/
theorem failures_confused (hw : Arrived heap w) (fuel room : Nat) (c : ContextId)
    (call : ForeignCall α)
    (hescape : call.operation.code (Engine.ofFuel fuel room) w =
      (.error (.failed (.object φ.exception)), w₁))
    (hφ : (w₁.failuresOf d)[n]? = some φ) (hi : φ.Intact w₁.heap)
    (hc : (w₁.context c).lastTag ≤ 2 ^ 53) (hd : (w₁.context d).lastTag ≤ 2 ^ 53) :
    (∀ ψ ∈ (w₁.context c).pending, (w₁.failuresOf c)[n]? = some ψ →
      call.run c (Engine.ofFuel fuel room) w =
        (.error (.failed (call.placed ψ.error)), w₁.settled c)) ∧
    ((∀ ψ ∈ (w₁.context c).pending, (w₁.failuresOf c)[n]? ≠ some ψ) →
      call.run c (Engine.ofFuel fuel room) w =
        call.report (.object φ.exception) (Engine.ofFuel fuel room) (w₁.settled c)) ∧
    ((w.context c).pending = [] → w₁.failuresOf c = w.failuresOf c →
      call.run c (Engine.ofFuel fuel room) w =
        call.report (.object φ.exception) (Engine.ofFuel fuel room) (w₁.settled c)) := by
  have hpasses := escape_passes hw hescape
  have hb := hpasses.arrived.booked
  have hn := hpasses.arrived.numbered
  have hrun := ForeignOperation.run_of_thrown (c := c) hescape
  have hforeign (hnone : ∀ ψ ∈ (w₁.context c).pending, (w₁.failuresOf c)[n]? ≠ some ψ) :
      call.run c (Engine.ofFuel fuel room) w =
        call.report (.object φ.exception) (Engine.ofFuel fuel room) (w₁.settled c) := by
    rw [ContextId.foreignError_no_namesake hb hn hc hd hφ hi hnone] at hrun
    exact ForeignCall.run_of_report hrun
  refine ⟨fun ψ hψ hsame => ?_, hforeign, fun hp hsame => hforeign fun ψ hψ => ?_⟩
  · rw [ContextId.foreignError_namesake hb hn hc hd hφ hi hψ hsame] at hrun
    exact ForeignCall.run_of_error hrun
  · rw [hpasses.waits_since hp hsame] at hψ
    cases hψ

/-! ## Two contexts -/

/-- A heap with a parse result and an object with a function that calls what it is given first, recovers
from its exception, and calls what it is given next. -/
def sharedHeap : Heap :=
  let reference (name : String) (i : Nat) : PropertyDescription :=
    ⟨.ofString name, .value (.object ⟨i⟩), true⟩
  let call (i : Nat) : Expr := .call (.argument i) (.value .undefined) []
  .ofDescriptions
    [⟨"program", .plain, []⟩, ⟨"checker", .plain, []⟩,
      ⟨"createScanner", .function (.value .undefined), []⟩,
      ⟨"getNodeId", .function (.value (.int 7)), []⟩, ⟨"syntaxKinds", .plain, []⟩,
      ⟨"parse", .plain, [reference "program" 0, reference "checker" 1,
        reference "createScanner" 2, reference "getNodeId" 3, reference "syntaxKinds" 4]⟩,
      ⟨"object", .plain, [reference "quiet" 3, reference "both" 7]⟩,
      ⟨"both", .function (.sequence [.attempt (call 0) (.value .undefined), call 1]), []⟩] #[]

/-- Opens two contexts and makes a function of the host that fails for each. -/
def sharedSteps : List Step :=
  [.mk (.open (.value (.object ⟨5⟩)) {}) "cx" (some "first"),
    .mk (.open (.value (.object ⟨5⟩)) {}) "cx" (some "second"),
    .mk (.hostFunction (.fail (.setup "first refused"))) "first" (some "failing"),
    .mk (.hostFunction (.fail (.setup "second refused"))) "second" (some "stranger")]

def sharedWorld : World := last 6 sharedHeap [] sharedSteps

def sharedValue (name : String) : Value :=
  match sharedWorld.lookup name with
  | some (.foreign v) => v
  | _ => .undefined

/-- The call of `both` with the stranger after another function. -/
def quarrel (other : Value) : ForeignCall Value :=
  .invoke ⟨6⟩ "both" [other, sharedValue "stranger"]

def quarrelWorld (other : Value) : World :=
  ((quarrel other).operation.code (Engine.ofFuel 6 stackSize) sharedWorld).2

/-- The stranger's exception is foreign to the first context if its own host functions did not fail. -/
theorem failures_confused_sample :
    ∃ φ, (quarrelWorld (.object ⟨3⟩)).failuresOf ⟨1⟩ = [φ] ∧
      (quarrel (.object ⟨3⟩)).run ⟨0⟩ (Engine.ofFuel 6 stackSize) sharedWorld =
        (quarrel (.object ⟨3⟩)).report (.object φ.exception) (Engine.ofFuel 6 stackSize)
          ((quarrelWorld (.object ⟨3⟩)).settled ⟨0⟩) := by
  have hfacts : ∃ φ ∈ (quarrelWorld (.object ⟨3⟩)).hostFailures,
      (quarrelWorld (.object ⟨3⟩)).failuresOf ⟨1⟩ = [φ] ∧
      failure? ((quarrel (.object ⟨3⟩)).operation.code (Engine.ofFuel 6 stackSize)
        sharedWorld).1 = some (.object φ.exception) ∧
      φ.Intact (quarrelWorld (.object ⟨3⟩)).heap := by
    decide +kernel
  have hworlds : (sharedWorld.context ⟨0⟩).pending = [] ∧
      (quarrelWorld (.object ⟨3⟩)).failuresOf ⟨0⟩ = sharedWorld.failuresOf ⟨0⟩ ∧
      ((quarrelWorld (.object ⟨3⟩)).context ⟨0⟩).lastTag ≤ 2 ^ 53 ∧
      ((quarrelWorld (.object ⟨3⟩)).context ⟨1⟩).lastTag ≤ 2 ^ 53 := by
    decide +kernel
  obtain ⟨φ, _, hone, hescape, hi⟩ := hfacts
  obtain ⟨hp, hsame, hc, hd⟩ := hworlds
  have hcode : (quarrel (.object ⟨3⟩)).operation.code (Engine.ofFuel 6 stackSize) sharedWorld =
      (.error (.failed (.object φ.exception)), quarrelWorld (.object ⟨3⟩)) := run_of_failure hescape
  have hφ : ((quarrelWorld (.object ⟨3⟩)).failuresOf ⟨1⟩)[0]? = some φ := by
    rw [hone]
    rfl
  exact ⟨φ, hone, (failures_confused last_arrived 6 stackSize ⟨0⟩ (quarrel (.object ⟨3⟩)) hcode hφ hi
    hc hd).2.2 hp hsame⟩

/-- The stranger's exception escapes from the call of the first context, but the call fails with the
error of the first context's own function, from which the code in between recovered. -/
theorem stranger_mistaken :
    ∃ φ ∈ (quarrelWorld (sharedValue "failing")).failuresOf ⟨1⟩, φ.error = .setup "second refused" ∧
      (∀ ψ ∈ (quarrelWorld (sharedValue "failing")).hostFailures,
        ψ.Intact (quarrelWorld (sharedValue "failing")).heap ∧
          (ψ.exception = φ.exception → ψ = φ)) ∧
      failure? ((quarrel (sharedValue "failing")).operation.code (Engine.ofFuel 6 stackSize)
        sharedWorld).1 = some (.object φ.exception) ∧
      failure? ((quarrel (sharedValue "failing")).run ⟨0⟩ (Engine.ofFuel 6 stackSize)
        sharedWorld).1 = some (.located "both" (.setup "first refused")) := by
  decide +kernel

end Session

end ProxySession
