/-!
# Syntax kinds and closed code tables

A `KindTable` names the codes of one session's syntax kinds. Several names may share a code; the
canonical one is the first that does not mark a range. Script kinds and signature kinds have fixed
codes.
-/

namespace ProxySession

/-- A syntax kind: its code in the session and its canonical name. -/
structure SyntaxKind where
  code : Int32
  name : String
deriving DecidableEq

namespace SyntaxKind

def debug (k : SyntaxKind) : String := k.name ++ "(" ++ toString k.code.toInt ++ ")"

end SyntaxKind

/-- Whether a name marks the first or the last code of a range. -/
def isRangeMarker (name : String) : Bool :=
  "First".toList.isPrefixOf name.toList || "Last".toList.isPrefixOf name.toList

/-- The syntax kinds of a session, by code and by name. -/
structure KindTable where
  names : List (Int32 × String)
  codes : List (String × Int32)
deriving DecidableEq, Inhabited

namespace KindTable

def empty : KindTable := ⟨[], []⟩

/-- Sets the value of a key, at its old place if it has one. -/
def put {κ ν : Type} [BEq κ] (key : κ) (value : ν) : List (κ × ν) → List (κ × ν)
  | [] => [(key, value)]
  | (k, v) :: rest => if k == key then (key, value) :: rest else (k, v) :: put key value rest

/-- Adds one entry: the last code of a name counts, and a name becomes canonical for its code if
the code has none, or if it replaces a range marker without being one. -/
def add (t : KindTable) (entry : String × Int32) : KindTable :=
  let replaces := match t.names.lookup entry.2 with
    | none => true
    | some existing => isRangeMarker existing && !isRangeMarker entry.1
  { names := if replaces then put entry.2 entry.1 t.names else t.names
    codes := put entry.1 entry.2 t.codes }

def ofEntries (entries : List (String × Int32)) : KindTable := entries.foldl add empty

/-- The number of distinct codes. -/
def size (t : KindTable) : Nat := t.names.length

def isEmpty (t : KindTable) : Bool := t.names.isEmpty

/-- The kind of a code, under its canonical name. -/
def kind? (t : KindTable) (code : Int32) : Option SyntaxKind :=
  (t.names.lookup code).map fun name => ⟨code, name⟩

def code? (t : KindTable) (name : String) : Option Int32 := t.codes.lookup name

/-- The kind that a name stands for, also when the name is not the canonical one. -/
def byName? (t : KindTable) (name : String) : Option SyntaxKind :=
  (t.code? name).bind t.kind?

end KindTable

/-- The kind of a source text. -/
inductive ScriptKind where
  | unknown | js | jsx | ts | tsx | external | json | deferred
deriving DecidableEq

namespace ScriptKind

def ofCode? (code : Int32) : Option ScriptKind :=
  [unknown, js, jsx, ts, tsx, external, json, deferred].zipIdx.findSome? fun (kind, i) =>
    if code.toInt = i then some kind else none

def name : ScriptKind → String
  | unknown => "Unknown"
  | js => "Js"
  | jsx => "Jsx"
  | ts => "Ts"
  | tsx => "Tsx"
  | external => "External"
  | json => "Json"
  | deferred => "Deferred"

end ScriptKind

/-- Whether a signature is called or constructs. -/
inductive SignatureKind where
  | call | construct
deriving DecidableEq

namespace SignatureKind

def code : SignatureKind → Int32
  | call => 0
  | construct => 1

def ofCode? (code : Int32) : Option SignatureKind :=
  if code = 0 then some call else if code = 1 then some construct else none

def name : SignatureKind → String
  | call => "Call"
  | construct => "Construct"

end SignatureKind

end ProxySession
