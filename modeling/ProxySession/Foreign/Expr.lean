import ProxySession.Foreign.Value

/-!
# Bodies of foreign functions

A foreign function or getter is an expression. It is evaluated on each call with the receiver, the
arguments and, inside a handler, the caught value.
-/

namespace ProxySession

mutual

/-- The body of a foreign function. -/
inductive Expr where
  | value (v : Value)
  | receiver
  | argument (i : Nat)
  | argumentCount
  | caught
  | get (object key : Expr)
  /-- Takes the value before the key. -/
  | set (object key value : Expr)
  | call (function receiver : Expr) (arguments : List Expr)
  | raise (e : Expr)
  /-- A fresh error object with this message. -/
  | error (message : Value)
  /-- A fresh symbol. -/
  | symbol (description : Option Units)
  | attempt (body handler : Expr)
  | sequence (parts : List Expr)
  /-- The branch of the first value that the subject equals strictly. -/
  | choose (subject : Expr) (branches : Branches)
  /-- The number of an object in order of first request. -/
  | identify (object : Expr)
  /-- Calls the visitor for each element, or unit of a text, until its answer is truthy. -/
  | forEach (collection visitor : Expr)
  /-- A fresh plain object with the enumerable properties of an object. -/
  | copy (object : Expr)
  | items (parts : List Expr)
  | counter (name : String)
  /-- A fresh scanner object over what is to be scanned. -/
  | scanner (subject : Expr)

/-- The branches of a choice, tried in order. -/
inductive Branches where
  | otherwise (e : Expr)
  | branch (v : Value) (e : Expr) (rest : Branches)

end

instance : Inhabited Expr := ⟨.value .undefined⟩

end ProxySession
