import ProxySession.Foreign.Ancestor

/-!
# Described heaps

A heap built from descriptions of its objects. Every object exists before its properties are filled
in, so references may be cyclic; the reference of an object is its place in the list.
-/

namespace ProxySession

/-- The kind of an object, with what it holds from the start. -/
inductive ObjectShape where
  | plain
  /-- The elements, and a length that cuts or extends them. -/
  | array (items : List Value) (length : Option Nat)
  | function (body : Expr)
  | constructor (body : Expr)
  | error (message : Value)
  | promise

/-- What a described property holds: a value, or the body of the function that computes it. -/
inductive DescribedContent where
  | value (v : Value)
  | getter (body : Expr)

structure PropertyDescription where
  key : PropertyKey
  content : DescribedContent
  enumerable : Bool

/-- The description of an object. A later property replaces an earlier one of the same key. -/
structure ObjectDescription where
  label : String
  shape : ObjectShape
  properties : List PropertyDescription

namespace ObjectShape

def kind : ObjectShape → ObjectKind
  | plain => .plain
  | array _ _ => .array 0
  | function body => .function (.body body)
  | constructor body => .constructor (.body body)
  | error _ => .error
  | promise => .promise

/-- The properties that an object of this shape has of itself. -/
def ownProperties : ObjectShape → List Property
  | array items _ => items.zipIdx.map fun (v, i) => ⟨.ofIndex i, .data v, true⟩
  | constructor _ => [⟨Object.prototypeKey, .data .undefined, false⟩]
  | error message => (Object.error message).properties
  | _ => []

/-- The length that is set after the elements. -/
def length? : ObjectShape → Option Nat
  | array _ length => length
  | _ => none

end ObjectShape

namespace ObjectDescription

/-- The object without its described properties. -/
def bareObject (d : ObjectDescription) : Object :=
  let bare : Object := { label := some d.label, kind := d.shape.kind, properties := [] }
  let filled := d.shape.ownProperties.foldl Object.define bare
  match d.shape.length? with
  | some length => filled.setLength length
  | none => filled

end ObjectDescription

namespace Heap

/-- The content of a described property. The function that computes it is a new object. -/
def describedContent (h : Heap) (key : PropertyKey) : DescribedContent → Content × Heap
  | .value v => (.data v, h)
  | .getter body =>
    let (r, h) := h.alloc
      { label := none
        kind := .function (.getter key body)
        properties := [Object.parameters 0]
        parent := some (h.ancestor .function) }
    (.accessor (some r) none, h)

/-- Gives an object a described property. -/
def describe (r : ObjectRef) (h : Heap) (p : PropertyDescription) : Heap :=
  let (content, h) := h.describedContent p.key p.content
  h.update r fun o => o.define ⟨p.key, content, p.enumerable⟩

/-- The heap of the described objects and the ancestors. The symbols in the descriptions have the
numbers of their own descriptions in `symbols`. -/
def ofDescriptions (ds : List ObjectDescription) (symbols : Array (Option Units)) : Heap :=
  let bare := (ds.map ObjectDescription.bareObject).toArray
  let h := { empty with objects := bare, symbols }.withAncestors
  ds.zipIdx.foldl (fun h (d, i) => d.properties.foldl (describe ⟨i⟩) h) h

end Heap

end ProxySession
