import ProxySession.Text.Record
import ProxySession.Text.Quoted

/-!
# Identity maps

An `IdentityMap` holds at most one entry per key. An entry that is present stays: adding under a
present key answers with the old entry.
-/

namespace ProxySession

/-- Entries by identity key, in the order in which they were added. -/
structure IdentityMap (α : Type) where
  kind : String
  entries : List (Int64 × α)
deriving Inhabited

namespace IdentityMap

variable {α : Type}

def new (kind : String) : IdentityMap α := ⟨kind, []⟩

def get? (m : IdentityMap α) (key : Int64) : Option α := m.entries.lookup key

def size (m : IdentityMap α) : Nat := m.entries.length

def isEmpty (m : IdentityMap α) : Bool := m.entries.isEmpty

/-- The entry under a key after `value` was offered for it. -/
def offer (m : IdentityMap α) (key : Int64) (value : α) : α × IdentityMap α :=
  match m.get? key with
  | some present => (present, m)
  | none => (value, { m with entries := m.entries ++ [(key, value)] })

def clear (m : IdentityMap α) : IdentityMap α := { m with entries := [] }

def debug (m : IdentityMap α) : String :=
  debugRecord "ObjectCache" [("kind", Text.quote m.kind), ("len", toString m.size)]

end IdentityMap

end ProxySession
