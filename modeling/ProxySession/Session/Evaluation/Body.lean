import ProxySession.Session.Evaluation.Primitive

/-!
# Bodies of functions

The value of the body of a function. Each expression takes a part of the engine's stack.
-/

namespace ProxySession

namespace Eval

open Effect

/-! ## Fresh objects -/

/-- Assigns properties of a source to a target. -/
def assignAll (source target : ObjectRef) : List PropertyKey → Eval Unit
  | [] => pure ()
  | key :: rest => do
    assign target key (← getProperty source key)
    assignAll source target rest

/-- A fresh plain object with the enumerable properties of another one. It has a parent while they
are assigned. -/
def copyObject (source : ObjectRef) : Eval Value := nested copySize do
  let heap := (← world).heap
  let o := heap.object source
  let target ← alloc
    { label := o.label.map (· ++ "'"), kind := .plain, properties := []
      parent := some (heap.ancestor .object) }
  assignAll source target o.enumerableKeys
  changeHeap fun heap => heap.update target fun o => { o with parent := none }
  pure (.object target)

/-- A fresh array. -/
def newArray (elements : List Value) : Eval Value := do
  let properties := elements.zipIdx.map fun (v, i) => (⟨.ofIndex i, .data v, true⟩ : Property)
  let r ← alloc { label := none, kind := .array elements.length, properties }
  pure (.object r)

/-- A fresh scanner object over a subject. -/
def newScanner (subject : Value) : Eval Value := act fun w =>
  let i := w.heap.cursors.size
  let label := "scanner" ++ toString (i + 1)
  let (properties, heap) := ScannerMethod.all.foldl
    (fun (properties, heap) method =>
      let (r, heap) := heap.alloc
        { label := some (label ++ "." ++ method.name),
          kind := .function (.scannerMethod i method), properties := [] }
      (properties ++ [⟨.ofString method.name, .data (.object r), true⟩], heap))
    (([] : List Property), { w.heap with cursors := w.heap.cursors.push { subject } })
  let (r, heap) := heap.alloc { label := some label, kind := .plain, properties }
  (.object r, { w with heap })

/-- The number of an object in order of first request. -/
def identify (r : ObjectRef) : Eval Value := act fun w =>
  let (n, identified) := w.heap.identified.number r
  (.int (Int32.ofNat n), { w with heap := { w.heap with identified } })

/-- The next count of a named counter. -/
def count (name : String) : Eval Value := act fun w =>
  let n := (w.heap.counters.lookup name).getD 0 + 1
  (.int (Int32.ofNat n),
    { w with heap := { w.heap with counters := (name, n) :: w.heap.counters } })

/-- Visits units, each as a text of its own, until the visitor answers with a truthy value. -/
def visitUnits (visitor : Value) : List UInt16 → Eval Value
  | [] => pure .undefined
  | u :: rest => do
    let answer ← callValue visitor .undefined [.text ⟨[u]⟩]
    if answer.isTruthy then pure answer else visitUnits visitor rest

/-- Visits the elements of an object with a length from index `i` on. -/
def visitFrom (collection : ObjectRef) (visitor : Value) : Nat → Nat → Eval Value
  | 0, _ => exhausted
  | fuel + 1, i => do
    let length ← getProperty collection Object.lengthKey
    if ← isBelow (.ofBinary64 (.ofInt i)) length then
      let element ← getProperty collection (.ofIndex i)
      let answer ← callValue visitor .undefined [element]
      if answer.isTruthy then pure answer else visitFrom collection visitor fuel (i + 1)
    else
      pure .undefined

/-- The number of elements that a visit may go through. -/
def visitLimit : Nat := Nat.pow 2 53

/-- Visits the elements of an object or the units of a text. Other values have none. -/
def visit (collection visitor : Value) : Eval Value :=
  match collection with
  | .object r => visitFrom r visitor visitLimit 0
  | .text t => visitUnits visitor t.codes
  | _ => pure .undefined

mutual

/-- The value of an expression. -/
def eval (frame : Frame) (e : Expr) : Eval Value := nested expressionSize do
  match e with
  | .value v => pure v
  | .receiver => pure frame.receiver
  | .argument i => pure ((frame.arguments[i]?).getD .undefined)
  | .argumentCount => pure (.int (Int32.ofNat frame.arguments.length))
  | .caught => pure frame.caught
  | .get object key => do
    let r ← requireObject (← eval frame object)
    let k ← eval frame key
    getProperty r (← keyOf k)
  | .set object key value => do
    let r ← requireObject (← eval frame object)
    let v ← eval frame value
    let k ← eval frame key
    setProperty r (← keyOf k) v
    pure v
  | .call function self arguments => do
    let f ← eval frame function
    let r ← eval frame self
    let vs ← evalAll frame arguments
    callValue f r vs
  | .raise e => do fail (← eval frame e)
  | .error message => .object <$> newError message
  | .symbol description => newSymbol description
  | .attempt body handler =>
    (eval frame body).handle fun thrown => eval { frame with caught := thrown } handler
  | .sequence parts => do
    let vs ← evalAll frame parts
    pure (vs.getLastD .undefined)
  | .choose subject branches => do
    let v ← eval frame subject
    evalBranches frame v branches
  | .identify object => do
    let r ← requireObject (← eval frame object)
    identify r
  | .forEach collection visitor => do
    let c ← eval frame collection
    if c.isAbsent then
      pure .undefined
    else
      let f ← eval frame visitor
      visit c f
  | .copy object => do
    let r ← requireObject (← eval frame object)
    copyObject r
  | .items parts => do
    let vs ← evalAll frame parts
    newArray vs
  | .counter name => count name
  | .scanner subject => do newScanner (← eval frame subject)

/-- The values of expressions, from left to right. -/
def evalAll (frame : Frame) : List Expr → Eval (List Value)
  | [] => pure []
  | e :: rest => do
    let v ← eval frame e
    let vs ← evalAll frame rest
    pure (v :: vs)

/-- The value of the first branch that the subject equals strictly. -/
def evalBranches (frame : Frame) (subject : Value) : Branches → Eval Value
  | .otherwise e => eval frame e
  | .branch v e rest =>
    if subject.strictEq v then eval frame e else evalBranches frame subject rest

end

end Eval

end ProxySession
