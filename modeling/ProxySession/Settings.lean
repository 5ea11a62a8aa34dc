import ProxySession.Text.Document
import ProxySession.Text.Quoted
import ProxySession.Text.Record

/-!
# Settings

The limits of a runtime and the identity rules of a context, read from JSON documents. A document
gives the fields by name or all of them in order; a field without a value takes its default, an
unknown field is skipped, and a field given twice refuses the document.
-/

namespace ProxySession

/-- The limits of a runtime. A limit that is absent is the runtime's own. -/
structure RuntimeLimits where
  memoryLimit : Option UInt64 := none
  maxStackSize : Option UInt64 := none
  gcThreshold : Option UInt64 := none
deriving DecidableEq

/-- How the same symbol or signature is recognised in different foreign handles. -/
inductive IdentityRule where
  /-- By a token given to each foreign object when it is first seen. -/
  | objectToken
  /-- By a numeric property of the foreign object. -/
  | property (name : String)
deriving DecidableEq, Inhabited

structure IdentityRules where
  symbolIdentity : IdentityRule := .objectToken
  signatureIdentity : IdentityRule := .objectToken
deriving DecidableEq, Inhabited

namespace RuntimeLimits

def debug (o : RuntimeLimits) : String :=
  let limit (n : Option UInt64) := debugOption (n.map fun n => toString n.toNat)
  debugRecord "RuntimeOptions" [("memory_limit", limit o.memoryLimit),
    ("max_stack_size", limit o.maxStackSize), ("gc_threshold", limit o.gcThreshold)]

/-- Whether a runtime with these limits has room for its first object. No limit or a limit of 0
leaves room. -/
def leavesRoom (o : RuntimeLimits) : Bool :=
  match o.memoryLimit with
  | none => true
  | some n => n == 0 || decide (10000 < n.toNat)

end RuntimeLimits

namespace IdentityRule

def debug : IdentityRule → String
  | objectToken => "ObjectToken"
  | property name => "Property(" ++ Text.quote name ++ ")"

end IdentityRule

namespace IdentityRules

def debug (o : IdentityRules) : String :=
  debugRecord "ContextOptions" [("symbol_identity", o.symbolIdentity.debug),
    ("signature_identity", o.signatureIdentity.debug)]

end IdentityRules

namespace Settings

/-- The one value under a name. None if the name is given twice; `some none` if it is absent. -/
def single (name : String) (fields : List (Option String × Document)) : Option (Option Document) :=
  match fields.filter fun f => f.1 == some name with
  | [] => some none
  | [f] => some (some f.2)
  | _ => none

/-- The values that a document gives for the named fields, in the order of the names. -/
def fieldValues (names : List String) : Document → Option (List (Option Document))
  | .object fields =>
    if fields.any fun f => f.1.isNone then none else names.mapM fun name => single name fields
  | .array items =>
    if items.length ≤ names.length then
      some (items.map some ++ List.replicate (names.length - items.length) none)
    else
      none
  | _ => none

/-- A limit: an integer below 2^64 without sign, fraction and exponent, or nothing. -/
def limit? : Option Document → Option (Option UInt64)
  | none => some none
  | some .null => some none
  | some (.number written) =>
    if written.toList.all Char.isDigit then
      match written.toNat? with
      | some n => if n < 0x10000000000000000 then some (some (UInt64.ofNat n)) else none
      | none => none
    else
      none
  | some _ => none

/-- An identity rule: the name of the token rule, or an object with exactly one rule. -/
def identity? : Option Document → Option IdentityRule
  | none => some .objectToken
  | some (.text (some "objectToken")) => some .objectToken
  | some (.object [(some "objectToken", .null)]) => some .objectToken
  | some (.object [(some "property", .text (some name))]) => some (.property name)
  | some _ => none

end Settings

open Settings in
/-- Reads the limits from a JSON document. -/
def RuntimeLimits.ofJson? (document : Document) : Option RuntimeLimits := do
  match ← fieldValues ["memoryLimit", "maxStackSize", "gcThreshold"] document with
  | [memory, stack, gc] =>
    let memoryLimit ← limit? memory
    let maxStackSize ← limit? stack
    let gcThreshold ← limit? gc
    pure { memoryLimit, maxStackSize, gcThreshold }
  | _ => none

open Settings in
/-- Reads the identity rules from a JSON document. -/
def IdentityRules.ofJson? (document : Document) : Option IdentityRules := do
  match ← fieldValues ["symbolIdentity", "signatureIdentity"] document with
  | [symbol, signature] =>
    let symbolIdentity ← identity? symbol
    let signatureIdentity ← identity? signature
    pure { symbolIdentity, signatureIdentity }
  | _ => none

end ProxySession
