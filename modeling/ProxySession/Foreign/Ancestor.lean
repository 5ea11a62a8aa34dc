import ProxySession.Foreign.Heap

/-!
# Ancestors

What the ancestors of the families provide, and how a heap gets them: after its objects come one
ancestor and one maker for each family, then the functions behind their properties. All of it is
hidden from enumeration, and nothing of it can be seen through a described object, which has no
parent.
-/

namespace ProxySession

/-- What an ancestor provides under a key. -/
inductive Provision where
  | value (v : Value)
  | constant (v : Value)
  | method (b : BuiltIn) (parameters : Nat)
  | accessor (get : BuiltIn) (set : Option BuiltIn)

namespace Family

/-- What kind of object the ancestor is. -/
def kind : Family → ObjectKind
  | function => .function (.builtIn .nothing)
  | text => .wrapper (.text ⟨[]⟩)
  | number => .wrapper (.int 0)
  | boolean => .wrapper (.bool false)
  | _ => .plain

/-- The number of formal parameters of the maker. -/
def parameters : Family → Nat
  | symbol => 0
  | _ => 1

/-- What the ancestor provides under names. -/
def provisions : Family → List (String × Provision)
  | object => [("toString", .method .describe 0), ("toLocaleString", .method .describeLocally 0),
      ("valueOf", .method .asObject 0), ("hasOwnProperty", .method .owns 1),
      ("isPrototypeOf", .method .isAncestor 1), ("propertyIsEnumerable", .method .enumerates 1),
      ("__proto__", .accessor .parent (some .setParent)),
      ("__defineGetter__", .method .defineGetter 2), ("__defineSetter__", .method .defineSetter 2),
      ("__lookupGetter__", .method .lookupGetter 1), ("__lookupSetter__", .method .lookupSetter 1)]
  | function => [("length", .constant (.int 0)), ("name", .constant (.ofString "")),
      ("call", .method .call 1), ("apply", .method .apply 2), ("bind", .method .bind 1),
      ("toString", .method .describeFunction 0), ("fileName", .accessor .nothing none),
      ("lineNumber", .accessor .nothing none), ("columnNumber", .accessor .nothing none),
      ("caller", .accessor .refuse (some .refuse)), ("arguments", .accessor .refuse (some .refuse))]
  | error => [("toString", .method .describeError 0), ("name", .value (.ofString "Error")),
      ("message", .value (.ofString ""))]
  | typeError => [("name", .value (.ofString "TypeError")), ("message", .value (.ofString ""))]
  | rangeError => [("name", .value (.ofString "RangeError")), ("message", .value (.ofString ""))]
  | syntaxError => [("name", .value (.ofString "SyntaxError")), ("message", .value (.ofString ""))]
  | text => [("slice", .method .slice 2), ("toString", .method (.primitive .text) 0),
      ("valueOf", .method (.primitive .text) 0)]
  | number => [("toString", .method (.write .number) 1),
      ("toLocaleString", .method (.write .number) 0),
      ("valueOf", .method (.primitive .number) 0)]
  | boolean => [("toString", .method (.write .boolean) 0),
      ("valueOf", .method (.primitive .boolean) 0)]
  | symbol => [("toString", .method (.write .symbol) 0),
      ("valueOf", .method (.primitive .symbol) 0), ("description", .accessor .description none)]
  | bigInteger => [("toString", .method (.write .bigInteger) 0),
      ("valueOf", .method (.primitive .bigInteger) 0)]

end Family

namespace Heap

/-- A new function of the engine. -/
def builtIn (h : Heap) (name : String) (parameters : Nat) (b : BuiltIn) : ObjectRef × Heap :=
  h.alloc
    { label := none
      kind := .function (.builtIn b)
      properties := [Object.parameters parameters, Object.named (Units.ofString name)]
      parent := some (h.ancestor .function) }

/-- The content of a provision. Its functions are new objects. -/
def provision (h : Heap) (name : String) : Provision → Content × Heap
  | .value v => (.data v, h)
  | .constant v => (.constant v, h)
  | .method b parameters =>
    let (r, h) := h.builtIn name parameters b
    (.data (.object r), h)
  | .accessor get set =>
    let (g, h) := h.builtIn ("get " ++ name) 0 get
    match set with
    | none => (.accessor (some g) none, h)
    | some set =>
      let (s, h) := h.builtIn ("set " ++ name) 1 set
      (.accessor (some g) (some s), h)

/-- The function that makes objects of a family. -/
def maker (h : Heap) (f : Family) : ObjectRef := ⟨(h.ancestor f).index + Family.all.length⟩

/-- Lets an object provide something under a key. -/
def provide (h : Heap) (r : ObjectRef) (key : PropertyKey) (p : Provision) : Heap :=
  let (content, h) := h.provision key.shown p
  h.update r fun o => o.define ⟨key, content, false⟩

/-- Gives the ancestor of a family what it provides. -/
def furnish (h : Heap) (f : Family) : Heap :=
  let h := f.provisions.foldl
    (fun h (name, p) => h.provide (h.ancestor f) (.ofString name) p) h
  h.provide (h.ancestor f) (.ofString "constructor") (.value (.object (h.maker f)))

/-- Gives the wrappers of symbols and big integers their classes, and those of symbols their
conversion. -/
def furnishSymbols (h : Heap) : Heap :=
  let h := h.provide (h.ancestor .symbol) (.symbol h.conversion) (.method (.primitive .symbol) 1)
  let h := h.provide (h.ancestor .symbol) (.symbol h.tag) (.constant (.ofString "Symbol"))
  h.provide (h.ancestor .bigInteger) (.symbol h.tag) (.constant (.ofString "BigInt"))

/-- The ancestor of a family, without properties. -/
def bareAncestor (h : Heap) (f : Family) : Object :=
  { label := none, kind := f.kind, properties := [], parent := f.parent?.map h.ancestor }

/-- The maker of a family. The makers of kinds of errors descend from the maker of errors. -/
def makerObject (h : Heap) (f : Family) : Object :=
  let prototype : Property := ⟨Object.prototypeKey, .constant (.object (h.ancestor f)), false⟩
  { label := none
    kind := .constructor (.builtIn (.make f))
    properties := [Object.parameters f.parameters, Object.named (Units.ofString f.name), prototype]
    parent := some (match f.parent? with
      | some .error => h.maker .error
      | _ => h.ancestor .function) }

/-- The heap with the ancestors and makers of all families after its objects. -/
def withAncestors (h : Heap) : Heap :=
  let first := h.objects.size
  let conversion := h.symbols.size
  let h :=
    { h with
      ancestor := fun f => ⟨first + f.index⟩
      conversion
      tag := conversion + 1
      symbols := h.symbols ++ #[some (Units.ofString "Symbol.toPrimitive"),
        some (Units.ofString "Symbol.toStringTag")] }
  let families := Family.all.toArray
  let h :=
    { h with objects := h.objects ++ families.map h.bareAncestor ++ families.map h.makerObject }
  (Family.all.foldl furnish h).furnishSymbols

end Heap

end ProxySession
