import ProxySession.Foreign.BuiltIn
import ProxySession.Foreign.Expr
import ProxySession.Foreign.Tokenizer

/-!
# The foreign heap

Objects have a kind and own properties in the order in which they were made. A property holds a
value or is computed by a function, and may be hidden from enumeration. A key is a text or a symbol.
The elements of an array are its properties whose keys are indices.

Objects of the engine and the host have a parent, which provides the properties that they do not
have of their own; described objects and the objects of foreign code have none. A primitive provides
the properties that an object around it has.
-/

namespace ProxySession

/-- A host function that foreign code can call. -/
structure HostId where
  index : Nat
deriving DecidableEq, Inhabited

inductive ScannerMethod where
  | resetTokenState | scan | getTokenStart | getTokenEnd | getTokenText
deriving DecidableEq

namespace ScannerMethod

def all : List ScannerMethod := [resetTokenState, scan, getTokenStart, getTokenEnd, getTokenText]

def name : ScannerMethod → String
  | resetTokenState => "resetTokenState"
  | scan => "scan"
  | getTokenStart => "getTokenStart"
  | getTokenEnd => "getTokenEnd"
  | getTokenText => "getTokenText"

end ScannerMethod

/-- The key of a property. -/
inductive PropertyKey where
  | text (t : Units)
  | symbol (id : Nat)
deriving DecidableEq, Inhabited

namespace PropertyKey

def ofString (s : String) : PropertyKey := .text (Units.ofString s)

/-- The key of an array element. -/
def ofIndex (i : Nat) : PropertyKey := ofString (toString i)

/-- The index of the array element under the key. -/
def index? : PropertyKey → Option Nat
  | text t => t.arrayIndex?
  | symbol _ => none

/-- The key in the record of a read, empty if it has no characters of its own. -/
def shown : PropertyKey → String
  | text t => t.decode.toOption.getD ""
  | symbol _ => ""

def isSymbol : PropertyKey → Bool
  | text _ => false
  | symbol _ => true

end PropertyKey

/-- What a function object does when it is called. -/
inductive Callable where
  | body (e : Expr)
  /-- Computes the property of a key. -/
  | getter (key : PropertyKey) (e : Expr)
  | scannerMethod (cursor : Nat) (method : ScannerMethod)
  | builtIn (b : BuiltIn)
  /-- Calls a function with this receiver and with these arguments before the others. -/
  | bound (f : ObjectRef) (receiver : Value) (arguments : List Value)
  | host (h : HostId)
deriving Inhabited

/-- The kind of an object. -/
inductive ObjectKind where
  | plain
  | array (length : Nat)
  | function (c : Callable)
  | constructor (c : Callable)
  | error
  | promise
  /-- A function that answers with the number of an object in a numbering. Only the host has it and
  calls it. -/
  | tokenSource (numbering : Nat)
  /-- An object around a primitive. -/
  | wrapper (v : Value)
deriving Inhabited

/-- What a property holds. -/
inductive Content where
  | data (v : Value)
  /-- A value that cannot be assigned to. -/
  | constant (v : Value)
  /-- A function that computes the value, and one that assignments go to. -/
  | accessor (get set : Option ObjectRef)
deriving Inhabited

structure Property where
  key : PropertyKey
  content : Content
  enumerable : Bool

structure Object where
  label : Option String
  kind : ObjectKind
  properties : List Property
  parent : Option ObjectRef := none
deriving Inhabited

/-- Objects numbered 1, 2, 3 and so on in the order in which they were first seen. -/
structure Numbering where
  seen : List ObjectRef
deriving Inhabited

namespace Numbering

def empty : Numbering := ⟨[]⟩

/-- The number of an object, which is added at the end if it is new. -/
def number (n : Numbering) (r : ObjectRef) : Nat × Numbering :=
  if r ∈ n.seen then (n.seen.idxOf r + 1, n) else (n.seen.length + 1, ⟨n.seen ++ [r]⟩)

end Numbering

namespace Object

def plain : Object := { label := none, kind := .plain, properties := [] }

/-- A property that is not enumerable and holds a value. -/
def hidden (name : String) (v : Value) : Property := ⟨.ofString name, .data v, false⟩

def messageKey : PropertyKey := .ofString "message"

def lengthKey : PropertyKey := .ofString "length"

def prototypeKey : PropertyKey := .ofString "prototype"

def nameKey : PropertyKey := .ofString "name"

/-- The length of a function with this number of formal parameters. -/
def parameters (n : Nat) : Property := ⟨lengthKey, .constant (.int (Int32.ofNat n)), false⟩

/-- The name of a function. -/
def named (name : Units) : Property := ⟨nameKey, .constant (.text name), false⟩

/-- An error object with a message and no stack. -/
def error (message : Value) : Object :=
  { label := none, kind := .error
    properties := [hidden "stack" .undefined, hidden "message" message] }

/-- A property that an object has by its kind: the length of an array, the length and the units of a
wrapped text. -/
def intrinsic? (o : Object) (key : PropertyKey) : Option Property :=
  match o.kind with
  | .array length =>
    if key = lengthKey then some ⟨lengthKey, .data (.ofBinary64 (.ofInt length)), false⟩ else none
  | .wrapper (.text t) =>
    if key = lengthKey then some ⟨lengthKey, .constant (.ofBinary64 (.ofInt t.length)), false⟩
    else (key.index?.bind fun i => t.codes[i]?).map fun u => ⟨key, .constant (.text ⟨[u]⟩), true⟩
  | _ => none

/-- The property that an object has of its own under a key. -/
def own? (o : Object) (key : PropertyKey) : Option Property :=
  (o.intrinsic? key).or (o.properties.find? fun p => p.key = key)

/-- What an object holds of its own under a key. -/
def lookup (o : Object) (key : PropertyKey) : Option Content := (o.own? key).map Property.content

/-- Whether a property cannot be defined anew. -/
def isFixed (o : Object) (key : PropertyKey) : Bool :=
  (o.intrinsic? key).isSome ||
    match o.kind with
    | .constructor _ => key = prototypeKey
    | _ => false

/-- Sets a property at its old place, or at the end if it is new. -/
def putProperty (new : Property) : List Property → List Property
  | [] => [new]
  | p :: rest => if p.key = new.key then new :: rest else p :: putProperty new rest

/-- Cuts or extends an array. -/
def setLength (o : Object) (length : Nat) : Object :=
  { o with
    kind := .array length
    properties := o.properties.filter fun p =>
      match p.key.index? with
      | some i => decide (i < length)
      | none => true }

/-- Defines a property. An element past the end of an array extends it. -/
def define (o : Object) (p : Property) : Object :=
  let properties := putProperty p o.properties
  match o.kind, p.key.index? with
  | .array length, some i => { o with kind := .array (max length (i + 1)), properties }
  | _, _ => { o with properties }

/-- Inserts by index, before the first larger one. -/
def insertByIndex (entry : Nat × PropertyKey) :
    List (Nat × PropertyKey) → List (Nat × PropertyKey)
  | [] => [entry]
  | e :: rest => if entry.1 < e.1 then entry :: e :: rest else e :: insertByIndex entry rest

/-- The enumerable keys: array indices in ascending order, then the other texts in order of making,
then the symbols. -/
def enumerableKeys (o : Object) : List PropertyKey :=
  let units := match o.kind with
    | .wrapper (.text t) => (List.range t.length).map PropertyKey.ofIndex
    | _ => []
  let keys := units ++ (o.properties.filter Property.enumerable).map Property.key
  let indices := keys.filterMap fun k => k.index?.map fun i => (i, k)
  let others := keys.filter fun k => k.index?.isNone
  (indices.foldr insertByIndex []).map Prod.snd ++ others.filter (!·.isSymbol)
    ++ others.filter (·.isSymbol)

def callable? (o : Object) : Option Callable :=
  match o.kind with
  | .function c | .constructor c => some c
  | _ => none

/-- The name of the kind of the object. -/
def typeName (o : Object) : String :=
  match o.kind with
  | .plain => "object"
  | .array _ => "array"
  | .function _ => "function"
  | .constructor _ => "constructor"
  | .error => "exception"
  | .promise => "promise"
  | .tokenSource _ => "function"
  | .wrapper _ => "object"

end Object

namespace Value

/-- The family of the objects around a primitive. -/
def family? : Value → Option Family
  | undefined | null | object _ => none
  | bool _ => some .boolean
  | int _ | float _ => some .number
  | bigint _ => some .bigInteger
  | text _ => some .text
  | symbol _ => some .symbol

end Value

/-- The objects and counters of the foreign side. -/
structure Heap where
  objects : Array Object
  /-- The object that the objects of a family inherit from. -/
  ancestor : Family → ObjectRef
  /-- The symbol under which an object keeps its conversion to a primitive. -/
  conversion : Nat
  /-- The symbol under which an object keeps the name of its class. -/
  tag : Nat
  /-- The numbers that `Expr.identify` gives. -/
  identified : Numbering
  counters : List (String × Nat)
  cursors : Array Cursor
  /-- The descriptions of the symbols by their numbers. -/
  symbols : Array (Option Units)
deriving Inhabited

namespace Heap

def empty : Heap := ⟨#[], default, 0, 0, .empty, [], #[], #[]⟩

/-- The object behind a reference; a blank one if there is none. -/
def object (h : Heap) (r : ObjectRef) : Object := h.objects.getD r.index .plain

def alloc (h : Heap) (o : Object) : ObjectRef × Heap :=
  (⟨h.objects.size⟩, { h with objects := h.objects.push o })

def update (h : Heap) (r : ObjectRef) (f : Object → Object) : Heap :=
  { h with objects := h.objects.modify r.index f }

/-- The parent of an object, the parent of that one and so on, at most `generations` of them. -/
def ancestry (h : Heap) : Nat → ObjectRef → List ObjectRef
  | 0, _ => []
  | generations + 1, r =>
    match (h.object r).parent with
    | some parent => parent :: h.ancestry generations parent
    | none => []

/-- An object and all that it inherits from, the nearest first. -/
def lineage (h : Heap) (r : ObjectRef) : List ObjectRef := r :: h.ancestry h.objects.size r

/-- What an object provides under a key: a property of its own, or else of the nearest ancestor that
has one. -/
def lookup (h : Heap) (r : ObjectRef) (key : PropertyKey) : Option Content :=
  (h.lineage r).findSome? fun r => (h.object r).lookup key

/-- A new object around a primitive, or a blank one around what is none. -/
def wrapper (h : Heap) (v : Value) : Object :=
  { label := none, kind := .wrapper v, properties := [], parent := v.family?.map h.ancestor }

/-- What a value provides under a key. -/
def provided (h : Heap) (v : Value) (key : PropertyKey) : Option Content :=
  match v with
  | .object r => h.lookup r key
  | v =>
    let o := h.wrapper v
    (o.lookup key).or (o.parent.bind fun r => h.lookup r key)

/-- Makes a new symbol. -/
def newSymbol (h : Heap) (description : Option Units) : Value × Heap :=
  (.symbol h.symbols.size, { h with symbols := h.symbols.push description })

def description? (h : Heap) (symbol : Nat) : Option Units := (h.symbols[symbol]?).join

def callable? (h : Heap) : Value → Option (ObjectRef × Callable)
  | .object r => (h.object r).callable?.map fun c => (r, c)
  | _ => none

/-- The numbering behind a token source. -/
def tokenSource? (h : Heap) : Value → Option Nat
  | .object r =>
    match (h.object r).kind with
    | .tokenSource i => some i
    | _ => none
  | _ => none

def isFunction (h : Heap) (v : Value) : Bool := (h.callable? v).isSome

def isError (h : Heap) : Value → Bool
  | .object r =>
    match (h.object r).kind with
    | .error => true
    | _ => false
  | _ => false

/-- The length of an array. -/
def arrayLength? (h : Heap) : Value → Option Nat
  | .object r =>
    match (h.object r).kind with
    | .array length => some length
    | _ => none
  | _ => none

/-- The name of the representation of a value. -/
def typeName (h : Heap) : Value → String
  | .undefined => "undefined"
  | .null => "null"
  | .bool _ => "bool"
  | .int _ => "int"
  | .float _ => "float"
  | .bigint _ => "big_int"
  | .text _ => "string"
  | .symbol _ => "symbol"
  | .object r => (h.object r).typeName

end Heap

end ProxySession
