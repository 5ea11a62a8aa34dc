import ProxySession.Settings
import ProxySession.Text.Pieces
import ProxySession.Session.Proxy

/-!
# Shown results

What a session reports about results, foreign values and events: a tree without references into the
session. The message of a reported failure is freed of what differs from run to run, addresses and
the lines of a foreign stack.
-/

namespace ProxySession

/-- A result as it is shown. -/
inductive Shown where
  | nothing
  | bool (b : Bool)
  | int (n : Int)
  | text (s : String)
  | number (x : Binary64)
  | undefined
  | bigint (n : Int)
  | symbol
  /-- A text with a stray surrogate. -/
  | brokenText
  /-- A foreign object by its label and the name of its kind. -/
  | object (label typeName : String)
  /-- A host value by its written form. -/
  | debug (text : String)
  | list (items : List Shown)
  | record (fields : List (String × Shown))
  | failure (e : SessionError)
deriving Inhabited

namespace Shown

def option {α : Type} (f : α → Shown) : Option α → Shown
  | none => nothing
  | some a => f a

def texts (ss : List String) : Shown := .list (ss.map .text)

def syntaxKind (k : SyntaxKind) : Shown :=
  .record [("kind", .text k.name), ("code", .int k.code.toInt), ("debug", .text k.debug)]

def flagWord {f : FlagFamily} (a : FlagWord f) : Shown :=
  .record [("bits", .int a.bits.toNat), ("debug", .text a.debug)]

/-- A flag word with the names that it lists. -/
def namedFlagWord {f : FlagFamily} (a : FlagWord f) : Shown :=
  .record [("bits", .int a.bits.toNat), ("debug", .text a.debug), ("names", texts a.names)]

/-- All that is known of a flag word, and of its relation to another one. -/
def flagFacts {f : FlagFamily} (a : FlagWord f) (other : Option (FlagWord f)) : Shown :=
  let relation := match other with
    | none => []
    | some b => [("contains", .bool (a.contains b)), ("intersects", .bool (a.intersects b)),
        ("union", namedFlagWord (a.union b)), ("difference", namedFlagWord (a.difference b))]
  .record ([("bits", .int a.bits.toNat), ("debug", .text a.debug), ("names", texts a.names),
    ("empty", .bool a.isEmpty), ("all", .bool a.isAll), ("known", .bool a.isKnown),
    ("truncated", .int a.truncate.bits.toNat)] ++ relation)

def literal : LiteralValue → Shown
  | .text s => .record [("string", .text s)]
  | .number x => .record [("number", .number x)]
  | .bigint negative base10 => .record [("negative", .bool negative), ("base10", .text base10)]

def token (t : Token) : Shown :=
  .record [("kind", syntaxKind t.kind), ("start", .int t.start.toNat), ("end", .int t.stop.toNat),
    ("text", .text t.text)]

def limit (n : Option UInt64) : Shown := option (fun n => .int n.toNat) n

def runtimeLimits (o : RuntimeLimits) : Shown :=
  .record [("memoryLimit", limit o.memoryLimit), ("maxStackSize", limit o.maxStackSize),
    ("gcThreshold", limit o.gcThreshold)]

def identityRule : IdentityRule → Shown
  | .objectToken => .text "objectToken"
  | .property name => .record [("property", .text name)]

def identityRules (o : IdentityRules) : Shown :=
  .record [("symbolIdentity", identityRule o.symbolIdentity),
    ("signatureIdentity", identityRule o.signatureIdentity)]

/-- All that is known of an error. -/
def errorFacts (e : SessionError) : Shown :=
  .record [("display", .text e.message), ("root", .text e.root.message),
    ("rootKind", .text e.kindName), ("isLifecycle", .bool e.isLifetime), ("sites", texts e.sites)]

end Shown

namespace Redaction

/-- The rest after a line break and the stack lines that follow it, if there are any. -/
def skipStack? (s : List Char) : Option (List Char) :=
  let isStackLine (line : List Char) : Bool := "    at ".toList.isPrefixOf line
  match s with
  | '\n' :: rest =>
    let lines := Text.pieces '\n' rest
    match lines.takeWhile isStackLine, lines.dropWhile isStackLine with
    | [], _ => none
    | _ :: _, after => some (Text.joinPieces '\n' after)
  | _ => none

/-- Removes stack lines, from the front. The fuel is the length. -/
def withoutStack : Nat → List Char → List Char
  | 0, s => s
  | _, [] => []
  | fuel + 1, c :: rest =>
    match skipStack? (c :: rest) with
    | some after => withoutStack fuel after
    | none => c :: withoutStack fuel rest

/-- Replaces addresses, from the front. An address begins after a parenthesis and goes up to the
next closing one, or to the end if there is none. The fuel is the length. -/
def withoutAddresses : Nat → List Char → List Char
  | 0, s => s
  | fuel + 1, '(' :: '0' :: 'x' :: rest =>
    "(PTR".toList ++ withoutAddresses fuel (rest.dropWhile (· != ')'))
  | _, [] => []
  | fuel + 1, c :: rest => c :: withoutAddresses fuel rest

/-- A text without stack lines and addresses. -/
def redact (s : String) : String :=
  let lines := withoutStack s.length s.toList
  String.ofList (withoutAddresses lines.length lines)

end Redaction

end ProxySession
