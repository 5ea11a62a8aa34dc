import ProxySession.Proofs.ForeignOperations
import ProxySession.Proofs.Escapes
import ProxySession.Proofs.Lifespan

/-!
# The visitor of a walk

The walker of a context runs with a node and a visitor that was made for this walk. In all that happens
meanwhile the visitor is there: it answers every call with undefined, and no other function keeps anything
in its collection. So a walker that stops at the first truthy answer never stops early.
-/

namespace ProxySession

open Effect

/-! ## Worlds of a session -/

namespace Session

/-- A world that a session over a heap can get to, while running operations own `F`. Each report begins
with fresh records. -/
inductive Attains (heap : Heap) : Multiset Reference → World → Prop
  | start : Attains heap 0 (World.ofHeap heap)
  | headway {F F' w w'} (h : Attains heap F w) (hh : Headway F w F' w') : Attains heap F' w'
  | clear {F w} (h : Attains heap F w) : Attains heap F w.cleared

variable {engine : Engine} {heap : Heap} {F : Multiset Reference} {w : World}

theorem Attains.sound (h : Attains heap F w) : w.Sound F := by
  induction h with
  | start => exact Holdings.empty_sound
  | headway _ hh ih => exact (hh.moves.sound_later ih).1
  | clear _ ih => exact ih

theorem Attains.sheltered (h : Attains heap F w) : w.Sheltered := by
  induction h with
  | start => exact World.ofHeap_sheltered heap
  | headway _ hh ih => exact hh.collects.sheltered ih
  | clear _ ih => exact ih

theorem report_attains (he : engine.Sound) {x : Operation Shown} (hx : x.Neutral [])
    (context : Option String) (h : Attains heap F w) : Attains heap F (report engine x context w).2 :=
  h.clear.headway (hx engine he F w.cleared (by simp)).toHeadway

theorem runScripts_attains (he : engine.Sound) : (scripts : List Script) → {w : World} →
    Attains heap F w → Attains heap F (runScripts engine scripts w).2
  | [], _, h => h
  | s :: rest, _, h => runScripts_attains he rest (report_attains he s.run_neutral none h)

theorem runSteps_attains (he : engine.Sound) : (steps : List Step) → {w : World} →
    Attains heap F w → Attains heap F (runSteps engine steps w).2
  | [], _, h => h
  | .mk command context store :: rest, _, h =>
    runSteps_attains he rest
      (report_attains he (Step.run_neutral (.mk command context store)) (some context) h)

theorem last_attains {fuel : Nat} {scripts : List Script} {steps : List Step} :
    Attains heap 0 (last fuel heap scripts steps) := by
  have he := Engine.ofFuel_sound fuel stackSize
  exact runSteps_attains he steps (runScripts_attains he scripts .start)

end Session

/-! ## Visits -/

namespace Eval

/-- Asks for one value after the other and calls a visitor with each, until there is none left or the
answer is truthy. -/
def visitUntil (next : Nat → Eval (Option Value)) (visitor : Value) : Nat → Nat → Eval Value
  | 0, _ => exhausted
  | limit + 1, i => do
    match ← next i with
    | none => pure .undefined
    | some v =>
      let answer ← callValue visitor .undefined [v]
      if answer.isTruthy then pure answer else visitUntil next visitor limit (i + 1)

/-- The same, whatever the answers are. -/
def visitAll (next : Nat → Eval (Option Value)) (visitor : Value) : Nat → Nat → Eval Value
  | 0, _ => exhausted
  | limit + 1, i => do
    match ← next i with
    | none => pure .undefined
    | some v =>
      let _ ← callValue visitor .undefined [v]
      visitAll next visitor limit (i + 1)

/-- What a visit of an object with a length asks for. -/
def elementAt (collection : ObjectRef) (i : Nat) : Eval (Option Value) := do
  let length ← getProperty collection Object.lengthKey
  if ← isBelow (.ofBinary64 (.ofInt i)) length then
    some <$> getProperty collection (.ofIndex i)
  else
    pure none

/-- What a visit of a text asks for: one unit after the other. -/
def unitAt (units : List UInt16) (i : Nat) : Eval (Option Value) :=
  pure (units[i]?.map fun u => .text ⟨[u]⟩)

def childAt : Value → Nat → Eval (Option Value)
  | .object r => elementAt r
  | .text t => unitAt t.codes
  | _ => fun _ => pure none

/-- How often a visit of a value asks at most. -/
def askLimit : Value → Nat
  | .object _ => visitLimit
  | .text t => t.codes.length + 1
  | _ => 1

theorem childAt_foreignActs (collection : Value) (i : Nat) : (childAt collection i).ForeignActs := by
  cases collection with
  | object r =>
    refine .bind (getProperty_foreignActs _ _) fun length => .bind (isBelow_foreignActs _ _) fun below => ?_
    cases below with
    | true => exact .map _ (getProperty_foreignActs _ _)
    | false => exact .pure _
  | _ => exact .pure _

theorem visitFrom_eq (collection : ObjectRef) (visitor : Value) (limit i : Nat) :
    visitFrom collection visitor limit i = visitUntil (elementAt collection) visitor limit i := by
  induction limit generalizing i with
  | zero => rfl
  | succ limit ih =>
    rw [visitFrom, visitUntil, elementAt, Effect.bind_assoc]
    refine congrArg (getProperty collection Object.lengthKey >>= ·) (funext fun length => ?_)
    rw [Effect.bind_assoc]
    refine congrArg (isBelow (.ofBinary64 (.ofInt i)) length >>= ·) (funext fun below => ?_)
    cases below with
    | false => rfl
    | true =>
      rw [if_pos rfl, if_pos rfl, Effect.bind_of_map]
      simp only [ih]

theorem visitUnits_eq (units : List UInt16) (visitor : Value) (i : Nat) :
    visitUnits visitor (units.drop i) =
      visitUntil (unitAt units) visitor (units.length - i + 1) i := by
  by_cases hi : i < units.length
  · obtain ⟨limit, hlimit⟩ : ∃ limit, units.length - i = limit + 1 := ⟨units.length - i - 1, by omega⟩
    have hnext : units.length - (i + 1) = limit := by omega
    have hask : unitAt units i = pure (some (.text ⟨[units[i]]⟩)) := by
      rw [unitAt, List.getElem?_eq_getElem hi]
      rfl
    have ih := visitUnits_eq units visitor (i + 1)
    rw [hnext] at ih
    rw [List.drop_eq_getElem_cons hi, hlimit, visitUnits, visitUntil, hask, ih]
    rfl
  · have hnone : units.length - i = 0 := by omega
    have hask : unitAt units i = pure none := by
      rw [unitAt, List.getElem?_eq_none (by omega)]
      rfl
    rw [List.drop_eq_nil_of_le (by omega), hnone, visitUnits, visitUntil, hask]
    rfl
termination_by units.length - i

/-- A visit asks for one child after the other, and stops at the first truthy answer. -/
theorem visit_eq (collection visitor : Value) :
    visit collection visitor = visitUntil (childAt collection) visitor (askLimit collection) 0 := by
  cases collection with
  | object r => exact visitFrom_eq r visitor visitLimit 0
  | text t => exact visitUnits_eq t.codes visitor 0
  | _ => rfl

end Eval

/-! ## Walks -/

namespace Node

/-- The world in which the walker of the node's context begins: the context is kept alive, and there is a
visitor. -/
def walkStart (n : Node) (w : World) : World := openVisitor n (World.holdContext n.context w)

/-- A world in the course of a walk that begins in `w`, whatever running operations own by then. -/
def Walking (n : Node) (F : Multiset Reference) (w w' : World) : Prop :=
  ∃ G, Headway (.context n.context ::ₘ F) (n.walkStart w) (.context n.context ::ₘ G) w'

variable {n : Node} {heap : Heap} {F : Multiset Reference} {w w' : World}

theorem walkStart_progress (n : Node) (F : Multiset Reference) (h : (w.context n.context).references ≠ 0) :
    Progress F w (.context n.context ::ₘ F) (n.walkStart w) := by
  have henter : Progress F w (.context n.context ::ₘ F) (World.holdContext n.context w) :=
    .change (.enter h) (World.take_turns (.context n.context) w) (.take _ _) (.take _ _)
  exact henter.trans (.rests (openVisitor_rests n _))

namespace Walking

theorem start : n.Walking F w (n.walkStart w) := ⟨F, Progress.refl.toHeadway⟩

/-- What runs in the course of a walk is a part of it. -/
theorem after {ε α : Type} {x : Effect ε α} {E : Engine} (h : n.Walking F w w') (hE : E.Sound)
    (hx : x.Neutral [.context n.context]) : n.Walking F w (x E w').2 := by
  obtain ⟨G, hh⟩ := h
  exact ⟨G, hh.trans (hx E hE _ w' (by simp)).toHeadway⟩

/-- The visitor is there. -/
theorem visitor_callable (h : n.Walking F w w') : w'.heap.callable? (.object (visitorRef w)) =
    some (visitorRef w, .host ⟨w.hostFunctions.size⟩) := by
  obtain ⟨G, hh⟩ := h
  have hobject : (n.walkStart w).heap.object (visitorRef w) = nextVisitor w :=
    (getD_push w.heap.objects (nextVisitor w) w.heap.objects.size).trans (if_pos rfl)
  have hlt : (visitorRef w).index < (n.walkStart w).heap.objects.size := by
    change w.heap.objects.size < (w.heap.objects.push (nextVisitor w)).size
    rw [Array.size_push]
    exact Nat.lt_succ_self _
  have hstays := hh.heap.kinds _ hlt
  rw [hobject] at hstays
  have hkind : (w'.heap.object (visitorRef w)).kind = .function (.host ⟨w.hostFunctions.size⟩) := by
    generalize (w'.heap.object (visitorRef w)).kind = kind at hstays
    cases hstays
    rfl
  rw [Heap.callable?, Object.callable?, hkind]
  rfl

theorem visitor_function (h : n.Walking F w w') : w'.hostFunctions[w.hostFunctions.size]? =
    some ⟨n.context, .collect w.collections.size⟩ := by
  obtain ⟨G, hh⟩ := h
  exact hh.collects.function Array.getElem?_push_size

/-- No other function keeps anything in its collection. -/
theorem visitor_alone (hw : Session.Attains heap F w) (h : n.Walking F w w') {i : Nat} {f : HostFunction}
    (hf : w'.hostFunctions[i]? = some f) (hb : f.behaviour = .collect w.collections.size) :
    i = w.hostFunctions.size := by
  obtain ⟨G, hh⟩ := h
  obtain ⟨fs, hfs, hnew⟩ := hh.collects.functions
  have hpush : (n.walkStart w).hostFunctions.toList =
      w.hostFunctions.toList ++ [⟨n.context, .collect w.collections.size⟩] := Array.toList_push
  rw [← Array.getElem?_toList, hfs, hpush] at hf
  rcases Nat.lt_trichotomy i w.hostFunctions.size with hlt | rfl | hgt
  · -- An earlier function keeps what it is given in an earlier collection.
    rw [List.append_assoc, List.getElem?_append_left (by simpa using hlt), Array.getElem?_toList] at hf
    have hold := hw.sheltered f (Array.mem_of_getElem? hf) _ hb
    omega
  · rfl
  · -- A later one has a later collection.
    rw [List.getElem?_append_right (by simpa using Nat.succ_le_of_lt hgt)] at hf
    have hle := (hnew f (List.mem_of_getElem? hf) _ hb).1
    have hsize : (n.walkStart w).collections.size = w.collections.size + 1 := Array.size_push _
    omega

theorem sound (hw : Session.Attains heap F w) (hr : (w.context n.context).references ≠ 0)
    (h : n.Walking F w w') : ∃ G, w'.Sound (.context n.context ::ₘ G) := by
  obtain ⟨G, hh⟩ := h
  exact ⟨G, ((hw.headway (walkStart_progress n F hr).toHeadway).headway hh).sound⟩

theorem present (hw : Session.Attains heap F w) (hr : (w.context n.context).references ≠ 0)
    (h : n.Walking F w w') : (w'.context n.context).references ≠ 0 := by
  obtain ⟨G, hs⟩ := h.sound hw hr
  exact Holdings.count_of_owned hs.toConsistent

/-- Whoever calls the visitor, it answers with undefined, keeps the first argument and puts the call on
record. Nothing else happens. -/
theorem visitor_run (hw : Session.Attains heap F w) (hr : (w.context n.context).references ≠ 0)
    (h : n.Walking F w w') (fuel room rest : Nat) (receiver : Value) (arguments : List Value) :
    (Engine.ofFuel (fuel + 1) room).run rest (.host ⟨w.hostFunctions.size⟩) receiver arguments w' =
      (.ok .undefined, (w'.mark.visit w.collections.size arguments).mark) := by
  have hpresent := h.present hw hr
  have hid : HostId.enter ⟨w.hostFunctions.size⟩ arguments (Engine.ofFuel fuel rest) w'.mark =
      (.ok .undefined, w'.mark.visit w.collections.size arguments) := by
    rw [HostId.enter, world_bind, show w'.mark.hostFunctions[_]? = _ from h.visitor_function]
    exact HostFunction.enter_collect (w := w'.mark) rfl arguments hpresent
  change (HostId.enter ⟨w.hostFunctions.size⟩ arguments).marked (Engine.ofFuel fuel rest) w' = _
  rw [Effect.marked, hid]

theorem visitor_answers (hw : Session.Attains heap F w) (hr : (w.context n.context).references ≠ 0)
    (h : n.Walking F w w') (fuel room : Nat) (receiver : Value) (arguments : List Value) :
    Eval.callValue (.object (visitorRef w)) receiver arguments (Engine.ofFuel (fuel + 1) room) w' =
      (.ok .undefined, (w'.mark.visit w.collections.size arguments).mark) := by
  rw [Eval.callValue, world_bind, h.visitor_callable]
  exact h.visitor_run hw hr fuel room room receiver arguments

/-- So it does not matter whether a walker stops at a truthy answer. -/
theorem visitUntil_eq (hw : Session.Attains heap F w) (hr : (w.context n.context).references ≠ 0)
    {next : Nat → Eval (Option Value)} (hnext : ∀ i, (next i).Neutral [.context n.context])
    (h : n.Walking F w w') (fuel room limit i : Nat) :
    Eval.visitUntil next (.object (visitorRef w)) limit i (Engine.ofFuel fuel room) w' =
      Eval.visitAll next (.object (visitorRef w)) limit i (Engine.ofFuel fuel room) w' := by
  induction limit generalizing i w' with
  | zero => rfl
  | succ limit ih =>
    have hsound := Engine.ofFuel_sound fuel room
    have hasked := h.after hsound (hnext i)
    rw [Eval.visitUntil, Eval.visitAll, bind_eq, bind_eq]
    rcases hask : next i (Engine.ofFuel fuel room) w' with ⟨stop | v, w₁⟩
    · rfl
    · rw [hask] at hasked
      cases v with
      | none => rfl
      | some v =>
        have hcalled := hasked.after hsound
          (Eval.callValue_foreignActs (.object (visitorRef w)) .undefined [v]).nonRetaining.neutral
        dsimp only
        rw [bind_eq, bind_eq]
        -- The visitor answers `undefined`, which is not truthy; without a level left it cannot be called at all.
        cases fuel with
        | zero =>
          have hstops : Eval.callValue (.object (visitorRef w)) .undefined [v] (Engine.ofFuel 0 room) w₁ =
              (.error .exhausted, w₁) := by
            rw [Eval.callValue, world_bind, hasked.visitor_callable]
            rfl
          rw [hstops]
        | succ fuel =>
          rw [hasked.visitor_answers hw hr fuel room .undefined [v]] at hcalled ⊢
          exact ih hcalled (i + 1)

/-- The visit of a value, too, goes on to its end. -/
theorem visit_goes_on (hw : Session.Attains heap F w) (hr : (w.context n.context).references ≠ 0)
    (h : n.Walking F w w') (collection : Value) (fuel room : Nat) :
    Eval.visit collection (.object (visitorRef w)) (Engine.ofFuel fuel room) w' =
      Eval.visitAll (Eval.childAt collection) (.object (visitorRef w)) (Eval.askLimit collection) 0
        (Engine.ofFuel fuel room) w' := by
  rw [Eval.visit_eq]
  exact h.visitUntil_eq hw hr (fun i => (Eval.childAt_foreignActs collection i).nonRetaining.neutral) fuel room _ 0

/-- What the visitor keeps is what it was given in the walk. -/
theorem kept (h : n.Walking F w w') : ∃ calls, w'.visits.toList = w.visits.toList ++ calls ∧
    w'.collections.getD w.collections.size [] = givenTo w.collections.size calls := by
  obtain ⟨G, hh⟩ := h
  obtain ⟨calls, hcalls, hcontents⟩ := hh.collects.contents
  have hopen : (n.walkStart w).collections = w.collections.push [] := rfl
  have hsize : w.collections.size < (n.walkStart w).collections.size := by
    rw [hopen, Array.size_push]
    exact Nat.lt_succ_self _
  have hempty : (n.walkStart w).collections.getD w.collections.size [] = [] := by
    rw [hopen, getD_push, if_pos rfl]
  have hgiven := hcontents _ hsize
  rw [hempty, List.nil_append] at hgiven
  exact ⟨calls, hcalls, hgiven⟩

end Walking

end Node

end ProxySession
