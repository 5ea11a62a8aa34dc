import ProxySession.Session.World

/-!
# Effects

An effect runs in a world and ends with a result or by stopping, and keeps the world that it
reached in either case. It stops by failing, when the allowed nesting of calls is used up, or when a
step makes no sense for the variables it names. Foreign code fails with the value that it throws,
session operations fail with a `SessionError`.

An `Engine` runs the functions of the next level of nesting. Foreign code also takes room on the
engine's stack, and fails where there is too little of it.
-/

namespace ProxySession

/-- Why an effect stopped. -/
inductive Stop (ε : Type) where
  | failed (e : ε)
  /-- The allowed nesting is used up. -/
  | exhausted
  /-- The step names a variable that is not there or holds something else. -/
  | senseless

/-- The receiver, the arguments and the caught value of a foreign evaluation. -/
structure Frame where
  receiver : Value
  arguments : List Value
  caught : Value := .undefined

/-- The size of an engine's stack. -/
def stackSize : Nat := Nat.pow 2 20

/-- Runs one further level of nesting. -/
structure Engine where
  /-- The number of further levels. -/
  fuel : Nat
  /-- What is left of the stack. -/
  room : Nat
  /-- Runs a function with a receiver and arguments, given what is left of the stack. -/
  run : Nat → Callable → Value → List Value → World → Except (Stop Value) Value × World

/-- An effect that may stop with `ε`. -/
def Effect (ε α : Type) : Type := Engine → World → Except (Stop ε) α × World

namespace Effect

variable {ε δ α β : Type}

protected def pure (a : α) : Effect ε α := fun _ w => (.ok a, w)

protected def bind (x : Effect ε α) (f : α → Effect ε β) : Effect ε β := fun engine w =>
  match x engine w with
  | (.ok a, w) => f a engine w
  | (.error stop, w) => (.error stop, w)

instance : Monad (Effect ε) where
  pure := Effect.pure
  bind := Effect.bind

/-- The world as it is. -/
def world : Effect ε World := fun _ w => (.ok w, w)

/-- Changes the world. -/
def change (f : World → World) : Effect ε Unit := fun _ w => (.ok (), f w)

/-- Changes the world and answers. -/
def act (f : World → α × World) : Effect ε α := fun _ w =>
  let (a, w) := f w
  (.ok a, w)

def fail (e : ε) : Effect ε α := fun _ w => (.error (.failed e), w)

def exhausted : Effect ε α := fun _ w => (.error .exhausted, w)

def senseless : Effect ε α := fun _ w => (.error .senseless, w)

/-- The engine's count of further levels, as a bound for loops through foreign values. -/
def fuel : Effect ε Nat := fun engine w => (.ok engine.fuel, w)

/-- What is left of the engine's stack. -/
def room : Effect ε Nat := fun engine w => (.ok engine.room, w)

/-- Runs `x` while a part of the stack is taken. -/
def taking (size : Nat) (x : Effect ε α) : Effect ε α := fun engine w =>
  x { engine with room := engine.room - size } w

/-- Runs a function, one level further down. -/
def run (c : Callable) (receiver : Value) (arguments : List Value) : Effect Value Value :=
  fun engine w => engine.run engine.room c receiver arguments w

def ofExcept (r : Except ε α) : Effect ε α :=
  match r with
  | .ok a => .pure a
  | .error e => fail e

/-- Turns a failure into a result. -/
def attempt (x : Effect ε α) : Effect δ (Except ε α) := fun engine w =>
  match x engine w with
  | (.ok a, w) => (.ok (.ok a), w)
  | (.error (.failed e), w) => (.ok (.error e), w)
  | (.error .exhausted, w) => (.error .exhausted, w)
  | (.error .senseless, w) => (.error .senseless, w)

/-- Runs `x` and then, however it ended, changes the world. -/
def eventually (x : Effect ε α) (cleanup : World → World) : Effect ε α := fun engine w =>
  let (result, w) := x engine w
  (result, cleanup w)

/-- Runs `x` and changes the world if it stopped. -/
def onStop (x : Effect ε α) (cleanup : World → World) : Effect ε α := fun engine w =>
  match x engine w with
  | (.ok a, w) => (.ok a, w)
  | (.error stop, w) => (.error stop, cleanup w)

/-- Runs `x` and records the moments at which it begins and ends. -/
def marked (x : Effect ε α) : Effect ε α := fun engine w =>
  let (result, w) := x engine w.mark
  (result, w.mark)

/-- On a failure, continues with a handler. -/
def handle (x : Effect ε α) (handler : ε → Effect δ α) : Effect δ α := do
  match ← x.attempt with
  | .ok a => pure a
  | .error e => handler e

/-- Locates a failure. -/
def located (site : String) (x : Effect SessionError α) : Effect SessionError α :=
  x.handle fun e => fail (.located site e)

/-- Runs an effect for each element in order and collects the results. -/
def collect (f : α → Effect ε β) : List α → Effect ε (List β)
  | [] => pure []
  | a :: rest => do
    let b ← f a
    let bs ← collect f rest
    pure (b :: bs)

end Effect

end ProxySession
