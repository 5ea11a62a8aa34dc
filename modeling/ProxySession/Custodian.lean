import ProxySession.SessionError
import ProxySession.Text.Quoted
import ProxySession.Text.Record
import ProxySession.Foreign.Heap

/-!
# Custodians of foreign handles

A `Custodian` owns handles into the foreign heap. Retaining a value puts it into a new slot and
answers with the number of the slot; slots are never used again. A custodian also tracks resources
that are closed together with it. Closing gives up everything once; whatever follows fails.

An operation answers with the new custodian, or with an error and no custodian: a failure changes
nothing.
-/

namespace ProxySession

/-- The number of a slot, in 32 bits. -/
structure HandleId where
  index : UInt32
deriving DecidableEq, Inhabited

namespace HandleId

def debug (id : HandleId) : String := "HandleId(" ++ toString id.index.toNat ++ ")"

end HandleId

/-- The outcome of retaining a value: what owns nothing passes through. -/
inductive Retained where
  | primitive (v : Value)
  | handle (id : HandleId)
deriving DecidableEq

/-- Handles and resources with one owner. -/
structure Custodian (ρ : Type) where
  name : String
  slots : Array (Option Value)
  resources : List ρ
  closed : Bool
deriving Inhabited

namespace Custodian

variable {ρ : Type}

def new (name : String) : Custodian ρ := ⟨name, #[], [], false⟩

/-- The number of slots that still hold a value. -/
def liveHandles (c : Custodian ρ) : Nat := c.slots.countP Option.isSome

/-- Takes a value into a new slot. -/
def retainHandle (c : Custodian ρ) (v : Value) : Except LifetimeError (HandleId × Custodian ρ) :=
  if c.closed then .error (.retainAfterClose c.name)
  else .ok (⟨UInt32.ofNat c.slots.size⟩, { c with slots := c.slots.push (some v) })

/-- Takes a value into a new slot, or lets it through if it owns nothing. -/
def retain (c : Custodian ρ) (v : Value) : Except LifetimeError (Retained × Custodian ρ) :=
  if c.closed then .error (.retainAfterClose c.name)
  else if v.ownsNothing then .ok (.primitive v, c)
  else (c.retainHandle v).map fun (id, c) => (.handle id, c)

/-- The value in a slot. -/
def get (c : Custodian ρ) (id : HandleId) : Except LifetimeError Value :=
  if c.closed then .error (.useAfterClose c.name)
  else match c.slots[id.index.toNat]? with
    | some (some v) => .ok v
    | some none => .error (.useAfterClose c.name)
    | none => .error (.unknownHandle c.name id.index)

def resolve (c : Custodian ρ) : Retained → Except LifetimeError Value
  | .primitive v => .ok v
  | .handle id => c.get id

/-- Empties one slot before the custodian is closed. -/
def release (c : Custodian ρ) (id : HandleId) : Except LifetimeError (Custodian ρ) :=
  if c.closed then .error (.useAfterClose c.name)
  else match c.slots[id.index.toNat]? with
    | some (some _) => .ok { c with slots := c.slots.setIfInBounds id.index.toNat none }
    | some none => .error (.releasedTwice c.name id.index)
    | none => .error (.unknownHandle c.name id.index)

/-- Adds a resource, after the finished ones are dropped. -/
def track (c : Custodian ρ) (finished : ρ → Bool) (resource : ρ) :
    Except LifetimeError (Custodian ρ) :=
  if c.closed then .error (.retainAfterClose c.name)
  else .ok { c with resources := c.resources.filter (fun r => !finished r) ++ [resource] }

section Close

variable {m : Type → Type} [Monad m]

/-- Closes resources in order, from number `index` on. A failure is reported and the rest is still
closed; the answer is the count of failures. -/
def closeResources (close : ρ → m (Except SessionError Unit))
    (report : Nat → SessionError → m Unit) : Nat → List ρ → m Nat
  | _, [] => pure 0
  | index, r :: rest => do
    match ← close r with
    | .ok _ => closeResources close report (index + 1) rest
    | .error e =>
      report index e
      let failures ← closeResources close report (index + 1) rest
      pure (failures + 1)

/-- What closing a custodian gave up. -/
structure Closing where
  released : Nat
  failures : Nat

/-- Gives up everything the custodian owns. -/
def close (c : Custodian ρ) (close : ρ → m (Except SessionError Unit))
    (report : Nat → SessionError → m Unit) :
    m (Except LifetimeError (Closing × Custodian ρ)) :=
  if c.closed then
    pure (.error (.closedTwice c.name))
  else do
    let failures ← closeResources close report 0 c.resources
    pure (.ok (⟨c.liveHandles, failures⟩,
      { c with slots := #[], resources := [], closed := true }))

end Close

def debug (c : Custodian ρ) : String :=
  debugRecord "ResourceHolder" [("name", Text.quote c.name),
    ("live_handles", toString c.liveHandles), ("resources", toString c.resources.length),
    ("closed", toString c.closed)]

end Custodian

end ProxySession
