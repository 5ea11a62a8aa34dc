import ProxySession.Session.Evaluation.Access

/-!
# Primitives of values

Where foreign code needs a text, a number or a key, an object first turns into a primitive by its
own methods. Comparison and the step up by one are built on that.
-/

namespace ProxySession

namespace Eval

open Effect

/-! ## Primitives of objects -/

/-- The first of the named methods of an object that answers with a primitive. -/
def primitiveBy (r : ObjectRef) : List String → Eval Value
  | [] => raiseTypeError "toPrimitive"
  | method :: rest => do
    let f ← getProperty r (.ofString method)
    match (← world).heap.callable? f with
    | none => primitiveBy r rest
    | some (g, c) =>
      match ← callFunction g c (.object r) [] with
      | .object _ => primitiveBy r rest
      | v => pure v

/-- The primitive of a value, by an object's conversion if it has one, or else by its methods. -/
def primitive (hint : String) (methods : List String) : Value → Eval Value
  | .object r => do
    match ← getProperty r (.symbol (← world).heap.conversion) with
    | .undefined | .null => primitiveBy r methods
    | f =>
      match ← apply f (.object r) [.ofString hint] with
      | .object _ => raiseTypeError "toPrimitive"
      | v => pure v
  | v => pure v

/-- The primitive of a value that turns into a text. -/
def textPrimitive : Value → Eval Value := primitive "string" ["toString", "valueOf"]

/-- The primitive of a value that turns into a number. -/
def numberPrimitive : Value → Eval Value := primitive "number" ["valueOf", "toString"]

/-- The primitive of a value that turns into either. -/
def anyPrimitive : Value → Eval Value := primitive "default" ["valueOf", "toString"]

/-! ## Texts and keys -/

/-- The text of a primitive. -/
def primitiveText : Value → Eval Units
  | .undefined => pure (Units.ofString "undefined")
  | .null => pure (Units.ofString "null")
  | .bool b => pure (Units.ofString (toString b))
  | .int n => pure (Units.ofString (toString n.toInt))
  | .float x => pure (Units.ofString (NumberStyle.script.write x))
  | .bigint n => pure (Units.ofString (toString n))
  | .text t => pure t
  | .symbol _ => raiseTypeError "cannot convert symbol to string"
  | .object _ => raiseTypeError "toPrimitive"

/-- The text that a value turns into where foreign code needs one. -/
def textOf (v : Value) : Eval Units := do primitiveText (← textPrimitive v)

/-- The key that a value turns into. -/
def keyOf (v : Value) : Eval PropertyKey := do
  match ← textPrimitive v with
  | .symbol id => pure (.symbol id)
  | v => .text <$> primitiveText v

/-! ## Numbers -/

/-- The number or big integer of a primitive. -/
def primitiveNumeric (v : Value) : Eval Value :=
  match v.numeric? with
  | some n => pure n
  | none => raiseTypeError "cannot convert symbol to number"

/-- The number or big integer that a value turns into. -/
def numericOf (v : Value) : Eval Value := do primitiveNumeric (← numberPrimitive v)

/-- The number that a value turns into. -/
def numberOf (v : Value) : Eval Binary64 := do
  match (← numericOf v).number? with
  | some x => pure x
  | none => raiseTypeError "cannot convert BigInt to number"

/-- How two values compare. -/
def comparison (a b : Value) : Eval (Option Ordering) := do
  match ← numberPrimitive a, ← numberPrimitive b with
  | .symbol _, _ | _, .symbol _ => raiseTypeError "cannot convert symbol to number"
  | p, q => pure (p.compare? q)

/-- Whether a value is below another one. -/
def isBelow (a b : Value) : Eval Bool := do pure ((← comparison a b) == some .lt)

/-- Whether a value is another one or above it. -/
def isAtLeast (a b : Value) : Eval Bool := do
  match ← comparison a b with
  | some .gt | some .eq => pure true
  | _ => pure false

/-- The sum of a value and one; a text gets the digit behind it. -/
def sumWithOne (v : Value) : Eval Value := do
  match ← anyPrimitive v with
  | .text t => pure (.text ⟨t.codes ++ (Units.ofString "1").codes⟩)
  | p =>
    match ← primitiveNumeric p with
    | .bigint _ => raiseTypeError "cannot convert to BigInt"
    | n => pure (Position.advance n 1)

end Eval

end ProxySession
