import ProxySession.Session.Run

/-!
# Sessions

A session is set up with the limits of its runtime and a foreign heap, loads scripts for their
effects, and runs steps. Each script and each step reports its outcome, what crossed the border,
and the events of the log.
-/

namespace ProxySession

/-- How a script or a step ended. -/
inductive Outcome where
  | ok (result : Shown)
  | error (e : SessionError)
  /-- The allowed nesting of foreign calls was used up. -/
  | exhausted
  /-- The step makes no sense for the variables it names. -/
  | senseless

/-- What a script or a step did. -/
structure Report where
  outcome : Outcome
  crossings : Array Crossing
  events : Array LogEvent
  /-- The state of the context that the step names, if it is there after the step. -/
  state : Option Shown

/-- A script: its name and a function body that runs without receiver and arguments. -/
structure Script where
  name : String
  body : Expr

namespace Script

/-- Runs a script for its effects. -/
def run (s : Script) : Operation Shown :=
  Effect.located s.name do
    let _ ← Bootstrap.foreign (Eval.nested Eval.callSize (Effect.run (.body s.body) .undefined []))
    pure .nothing

end Script

namespace Session

/-- Sets up a runtime with these limits. -/
def setUp (limits : RuntimeLimits) : Except SessionError RuntimeLimits :=
  if limits.leavesRoom then .ok limits
  else .error (.setup "Allocation failed while creating object")

/-- The state of the context that a variable holds. -/
def stateOf (name : String) (w : World) : Option Shown :=
  match w.lookup name with
  | some (.context c) => some (w.contextState c)
  | _ => none

/-- Runs an operation with fresh records and reports what it did. -/
def report (engine : Engine) (x : Operation Shown) (context : Option String) (w : World) :
    Report × World :=
  let (result, w) := x engine { w with crossings := #[], events := #[] }
  let outcome := match result with
    | .ok r => .ok r
    | .error (.failed e) => .error e
    | .error .exhausted => .exhausted
    | .error .senseless => .senseless
  (⟨outcome, w.crossings, w.events, context.bind fun name => stateOf name w⟩, w)

def runScripts (engine : Engine) : List Script → World → List Report × World
  | [], w => ([], w)
  | s :: rest, w =>
    let (r, w) := report engine s.run none w
    let (rs, w) := runScripts engine rest w
    (r :: rs, w)

def runSteps (engine : Engine) : List Step → World → List Report × World
  | [], w => ([], w)
  | .mk command context store :: rest, w =>
    let (r, w) := report engine (Step.mk command context store).run (some context) w
    let (rs, w) := runSteps engine rest w
    (r :: rs, w)

/-- Runs scripts and then steps over a heap, with at most `fuel` levels of nesting. -/
def run (fuel : Nat) (heap : Heap) (scripts : List Script) (steps : List Step) :
    List Report × List Report :=
  let engine := Engine.ofFuel fuel stackSize
  let (loaded, w) := runScripts engine scripts (World.ofHeap heap)
  (loaded, (runSteps engine steps w).1)

end Session

end ProxySession
