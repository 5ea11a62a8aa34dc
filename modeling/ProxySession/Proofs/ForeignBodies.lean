import ProxySession.Proofs.ForeignCode
import ProxySession.Session.Evaluation.Body
import ProxySession.Session.Evaluation.BuiltIn
import ProxySession.Session.ScannerMethods

/-!
# Functions of the foreign side

The bodies of functions, the functions of the engine and the methods of scanner objects are built
from uses of foreign values, so they are made of foreign acts, too.
-/

namespace ProxySession

namespace Eval

open Effect

variable {α : Type}

/-! ## Bodies -/

@[grind ←] theorem assignAll_foreignActs (source target : ObjectRef) (keys : List PropertyKey) :
    (assignAll source target keys).ForeignActs := by
  induction keys with
  | nil => exact ForeignActs.pure ()
  | cons key rest ih =>
    unfold assignAll
    grind

@[grind ←] theorem copyObject_foreignActs (source : ObjectRef) : (copyObject source).ForeignActs := by
  unfold copyObject
  refine nested_foreignActs _ (ForeignActs.read (fun w w' h => by simp only [h]) fun w =>
    ForeignActs.bind (alloc_foreignActs _) fun target => ForeignActs.bind (assignAll_foreignActs _ _ _) fun _ =>
      ForeignActs.bind (changeObject_foreignActs target fun o => .same o.kind) fun _ => ForeignActs.pure _)

@[grind ←] theorem newArray_foreignActs (elements : List Value) : (newArray elements).ForeignActs := by
  unfold newArray
  grind

/-- Objects made one after the other leave the ones before as they are. -/
theorem evolves_foldl {β γ : Type} {f : γ × Heap → β → γ × Heap}
    (hf : ∀ c, ∀ h : Heap, ∀ b, h.Evolves (f (c, h) b).2) :
    (bs : List β) → (c : γ) → (h : Heap) → h.Evolves (bs.foldl f (c, h)).2
  | [], _, h => .refl h
  | b :: rest, c, h => (hf c h b).trans (evolves_foldl hf rest (f (c, h) b).1 (f (c, h) b).2)

@[grind ←] theorem newScanner_foreignActs (subject : Value) : (newScanner subject).ForeignActs :=
  ForeignActs.ofHeap (fun _ => rfl) fun h => by
    have hcursor : h.Evolves { h with cursors := h.cursors.push { subject } } := .of_objects rfl
    exact (hcursor.trans (evolves_foldl (fun _ h _ => .alloc h _) _ _ _)).trans (.alloc _ _)

@[grind ←] theorem identify_foreignActs (r : ObjectRef) : (identify r).ForeignActs :=
  ForeignActs.ofHeap (fun _ => rfl) fun _ => .of_objects rfl

@[grind ←] theorem count_foreignActs (name : String) : (count name).ForeignActs :=
  ForeignActs.ofHeap (fun _ => rfl) fun _ => .of_objects rfl

@[grind ←] theorem visitUnits_foreignActs (visitor : Value) (us : List UInt16) :
    (visitUnits visitor us).ForeignActs := by
  induction us with
  | nil => exact ForeignActs.pure _
  | cons u rest ih =>
    unfold visitUnits
    grind

@[grind ←] theorem visitFrom_foreignActs (collection : ObjectRef) (visitor : Value) (fuel i : Nat) :
    (visitFrom collection visitor fuel i).ForeignActs := by
  induction fuel generalizing i with
  | zero => exact ForeignActs.exhausted
  | succ fuel ih =>
    unfold visitFrom
    grind

@[grind ←] theorem visit_foreignActs (collection visitor : Value) :
    (visit collection visitor).ForeignActs := by
  unfold visit
  grind

mutual

theorem eval_foreignActs (frame : Frame) (e : Expr) : (eval frame e).ForeignActs := by
  unfold eval
  refine nested_foreignActs _ ?_
  cases e with
  | value v => exact ForeignActs.pure v
  | receiver => exact ForeignActs.pure _
  | argument i => exact ForeignActs.pure _
  | argumentCount => exact ForeignActs.pure _
  | caught => exact ForeignActs.pure _
  | get object key =>
    have ho := eval_foreignActs frame object
    have hk := eval_foreignActs frame key
    grind
  | set object key value =>
    have ho := eval_foreignActs frame object
    have hk := eval_foreignActs frame key
    have hv := eval_foreignActs frame value
    grind
  | call function self arguments =>
    have hf := eval_foreignActs frame function
    have hs := eval_foreignActs frame self
    have ha := evalAll_foreignActs frame arguments
    grind
  | raise e =>
    have he := eval_foreignActs frame e
    grind
  | error message => exact ForeignActs.map _ (newError_foreignActs message)
  | symbol description => exact newSymbol_foreignActs description
  | attempt body handler =>
    exact ForeignActs.handle (eval_foreignActs frame body) fun thrown =>
      eval_foreignActs { frame with caught := thrown } handler
  | sequence parts =>
    have hp := evalAll_foreignActs frame parts
    grind
  | choose subject branches =>
    exact ForeignActs.bind (eval_foreignActs frame subject) fun v => evalBranches_foreignActs frame v branches
  | identify object =>
    have ho := eval_foreignActs frame object
    grind
  | forEach collection visitor =>
    have hc := eval_foreignActs frame collection
    have hv := eval_foreignActs frame visitor
    grind
  | copy object =>
    have ho := eval_foreignActs frame object
    grind
  | items parts =>
    have hp := evalAll_foreignActs frame parts
    grind
  | counter name => exact count_foreignActs name
  | scanner subject =>
    have hs := eval_foreignActs frame subject
    grind

theorem evalAll_foreignActs (frame : Frame) : (es : List Expr) → (evalAll frame es).ForeignActs
  | [] => by
    unfold evalAll
    exact ForeignActs.pure []
  | e :: rest => by
    have he := eval_foreignActs frame e
    have hr := evalAll_foreignActs frame rest
    unfold evalAll
    grind

theorem evalBranches_foreignActs (frame : Frame) (subject : Value) :
    (bs : Branches) → (evalBranches frame subject bs).ForeignActs
  | .otherwise e => by
    unfold evalBranches
    exact eval_foreignActs frame e
  | .branch v e rest => by
    have he := eval_foreignActs frame e
    have hr := evalBranches_foreignActs frame subject rest
    unfold evalBranches
    grind

end

attribute [grind ←] eval_foreignActs evalAll_foreignActs evalBranches_foreignActs

/-! ## Functions of the engine -/

@[grind ←] theorem toObject_foreignActs (v : Value) :
    (toObject v).ForeignActs := by
  unfold toObject
  grind

@[grind ←] theorem requireFunction_foreignActs (v : Value) :
    (requireFunction v).ForeignActs := by
  unfold requireFunction
  grind

@[grind ←] theorem classOf_foreignActs (v : Value) :
    (classOf v).ForeignActs := by
  unfold classOf
  grind

@[grind ←] theorem ownProperty_foreignActs (v : Value) (key : PropertyKey) :
    (ownProperty? v key).ForeignActs := by
  unfold ownProperty?
  grind

@[grind ←] theorem descends_foreignActs (r : ObjectRef) (v : Value) :
    (descends r v).ForeignActs := by
  unfold descends
  grind

@[grind ←] theorem setParent_foreignActs (r : ObjectRef) (parent : Option ObjectRef) :
    (setParent r parent).ForeignActs := by
  unfold setParent
  have hset : (changeHeap fun heap => heap.update r fun o => { o with parent } : Eval Unit).ForeignActs :=
    changeObject_foreignActs r fun o => .same o.kind
  grind

@[grind ←] theorem assignParent_foreignActs (v parent : Value) :
    (assignParent v parent).ForeignActs := by
  unfold assignParent
  grind

@[grind ←] theorem accessors_foreignActs (v key : Value) :
    (accessors v key).ForeignActs := by
  unfold accessors
  grind

@[grind ←] theorem defineAccessors_foreignActs (v key f : Value)
    (content : ObjectRef → Content → Content) :
    (defineAccessors v key f content).ForeignActs := by
  unfold defineAccessors
  grind

@[grind ←] theorem describeFunction_foreignActs (receiver : Value) :
    (describeFunction receiver).ForeignActs := by
  unfold describeFunction
  grind

@[grind ←] theorem argumentList_foreignActs (v : Value) :
    (argumentList v).ForeignActs := by
  unfold argumentList
  grind

@[grind ←] theorem bindFunction_foreignActs (f receiver : Value) (arguments : List Value) :
    (bindFunction f receiver arguments).ForeignActs := by
  unfold bindFunction
  refine ForeignActs.bind (requireFunction_foreignActs f) fun r =>
    ForeignActs.read (fun w w' h => by simp only [h]) fun w => ?_
  extract_lets c rest
  have hrest (length : Value) : (rest length).ForeignActs := by
    unfold rest
    grind
  split
  · exact ForeignActs.bind (ForeignActs.map _ (getProperty_foreignActs _ _)) hrest
  · exact hrest _

@[grind ←] theorem describeError_foreignActs (receiver : Value) :
    (describeError receiver).ForeignActs := by
  unfold describeError
  extract_lets rest
  have hrest (r : ObjectRef) : (rest r).ForeignActs := by
    unfold rest
    extract_lets part
    have hpart (name : String) (key : PropertyKey) : (part name key).ForeignActs := by
      unfold part
      refine ForeignActs.bind (getProperty_foreignActs r key) fun v => ?_
      split
      · exact ForeignActs.pure _
      · exact textOf_foreignActs v
    clear_value part
    grind
  clear_value rest
  grind

@[grind ←] theorem makeError_foreignActs (f : Family) (message options : Value) :
    (makeError f message options).ForeignActs := by
  unfold makeError
  extract_lets rest
  have hrest (ps : List Property) : (rest ps).ForeignActs := by
    unfold rest
    grind
  clear_value rest
  split
  · exact hrest []
  · grind

@[grind ←] theorem unwrapped_foreignActs (f : Family) (v : Value) :
    (unwrapped f v).ForeignActs := by
  unfold unwrapped
  grind

@[grind ←] theorem writtenPrimitive_foreignActs (v : Value) :
    (writtenPrimitive v).ForeignActs := by
  unfold writtenPrimitive
  grind

@[grind ←] theorem bigIntegerOf_foreignActs (v : Value) :
    (bigIntegerOf v).ForeignActs := by
  unfold bigIntegerOf
  grind

@[grind ←] theorem cut_foreignActs (t : Tokenizer) (v : Value) :
    (cut t v).ForeignActs := by
  unfold cut
  grind

@[grind ←] theorem slice_foreignActs (receiver start stop : Value) :
    (slice receiver start stop).ForeignActs := by
  unfold slice
  grind

@[grind ←] theorem make_foreignActs (arguments : List Value) (f : Family) :
    (make arguments f).ForeignActs := by
  unfold make
  grind

@[grind ←] theorem runBuiltIn_foreignActs (receiver : Value) (arguments : List Value) (b : BuiltIn) :
    (runBuiltIn receiver arguments b).ForeignActs := by
  unfold runBuiltIn
  grind

/-! ## Scanner objects -/

@[grind ←] theorem cursor_foreignActs (i : Nat) :
    (cursor i).ForeignActs := by
  unfold cursor
  grind

@[grind ←] theorem changeCursor_foreignActs (i : Nat) (f : Cursor → Cursor) :
    (changeCursor i f).ForeignActs :=
  changeHeap_foreignActs fun _ => .of_objects rfl

namespace Stepwise

@[grind ←] theorem length_foreignActs (i : Nat) : (length i).ForeignActs :=
  ForeignActs.bind (cursor_foreignActs i) fun c => readMember_foreignActs c.subject Object.lengthKey

@[grind ←] theorem here_foreignActs (i : Nat) : (here i).ForeignActs :=
  ForeignActs.bind (cursor_foreignActs i) fun c => ForeignActs.bind (keyOf_foreignActs c.position) fun key =>
    read_foreignActs c.subject key

@[grind ←] theorem isInside_foreignActs (i : Nat) : (isInside i).ForeignActs :=
  ForeignActs.bind (cursor_foreignActs i) fun c => ForeignActs.bind (length_foreignActs i) fun length =>
    isBelow_foreignActs c.position length

@[grind ←] theorem isOutside_foreignActs (i : Nat) : (isOutside i).ForeignActs :=
  ForeignActs.bind (cursor_foreignActs i) fun c => ForeignActs.bind (length_foreignActs i) fun length =>
    isAtLeast_foreignActs c.position length

@[grind ←] theorem step_foreignActs (i : Nat) : (step i).ForeignActs :=
  ForeignActs.bind (cursor_foreignActs i) fun c => ForeignActs.bind (numericOf_foreignActs c.position) fun _ =>
    changeCursor_foreignActs i _

@[grind ←] theorem tokenText_foreignActs (i : Nat) : (tokenText i).ForeignActs :=
  ForeignActs.bind (cursor_foreignActs i) fun c => ForeignActs.bind (readMember_foreignActs c.subject _) fun f =>
    ForeignActs.bind (cursor_foreignActs i) fun _ => apply_foreignActs f c.subject _

@[grind ←] theorem hasUnit_foreignActs (p : UInt16 → Bool) (u : Value) : (hasUnit p u).ForeignActs :=
  ForeignActs.bind (textOf_foreignActs u) fun _ => ForeignActs.pure _

@[grind ←] theorem isDigit_foreignActs (u : Value) : (isDigit u).ForeignActs := by
  refine ForeignActs.bind (isAtLeast_foreignActs u _) fun above => ?_
  split
  · exact isAtLeast_foreignActs _ u
  · exact ForeignActs.pure false

@[grind ←] theorem skip_foreignActs (i : Nat) {test : Eval Bool} (ht : test.ForeignActs)
    (fuel : Nat) : (skip i test fuel).ForeignActs := by
  induction fuel with
  | zero => exact ForeignActs.exhausted
  | succ fuel ih =>
    refine ForeignActs.bind (isInside_foreignActs i) fun inside => ?_
    split
    · refine ForeignActs.bind ht fun passes => ?_
      split
      · exact ForeignActs.bind (step_foreignActs i) fun _ => ih
      · exact ForeignActs.pure ()
    · exact ForeignActs.pure ()

@[grind ←] theorem skipWhile_foreignActs (i : Nat) {test : Value → Eval Bool}
    (ht : ∀ v, (test v).ForeignActs) : (skipWhile i test).ForeignActs :=
  skip_foreignActs i (ForeignActs.bind (here_foreignActs i) ht) limit

@[grind ←] theorem skipNumber_foreignActs (i : Nat) : (skipNumber i).ForeignActs := by
  refine skip_foreignActs i (ForeignActs.bind (here_foreignActs i) fun u =>
    ForeignActs.bind (isDigit_foreignActs u) fun digit => ?_) limit
  split
  · exact ForeignActs.pure true
  · exact ForeignActs.map _ (here_foreignActs i)

@[grind ←] theorem closeString_foreignActs (i : Nat) : (closeString i).ForeignActs :=
  ForeignActs.bind (cursor_foreignActs i) fun c =>
    ForeignActs.bind (sumWithOne_foreignActs c.position) fun behind =>
      ForeignActs.bind (length_foreignActs i) fun last =>
        ForeignActs.bind (numberOf_foreignActs behind) fun _ =>
          ForeignActs.bind (numberOf_foreignActs last) fun _ => changeCursor_foreignActs i _

@[grind ←] theorem take_foreignActs (i : Nat) (u : Value) : (take i u).ForeignActs := by
  refine ForeignActs.bind (hasUnit_foreignActs _ u) fun word => ?_
  split
  · refine ForeignActs.bind (skipWhile_foreignActs i fun v => hasUnit_foreignActs _ v) fun _ =>
      ForeignActs.bind (tokenText_foreignActs i) fun text => ?_
    split <;> exact ForeignActs.pure _
  · refine ForeignActs.bind (isDigit_foreignActs u) fun digit => ?_
    split
    · exact ForeignActs.bind (skipNumber_foreignActs i) fun _ => ForeignActs.pure _
    · split
      · exact ForeignActs.bind (step_foreignActs i) fun _ =>
          ForeignActs.bind (skipWhile_foreignActs i fun _ => ForeignActs.pure _) fun _ =>
            ForeignActs.bind (closeString_foreignActs i) fun _ => ForeignActs.pure _
      · refine ForeignActs.bind (step_foreignActs i) fun _ => ?_
        split <;> exact ForeignActs.pure _

@[grind ←] theorem scan_foreignActs (i : Nat) : (scan i).ForeignActs := by
  refine ForeignActs.bind (skipWhile_foreignActs i fun _ => ForeignActs.pure _) fun _ =>
    ForeignActs.bind (changeCursor_foreignActs i _) fun _ =>
      ForeignActs.bind (isOutside_foreignActs i) fun outside => ?_
  split
  · exact ForeignActs.pure _
  · exact ForeignActs.bind (here_foreignActs i) fun u => take_foreignActs i u

end Stepwise

@[grind ←] theorem scan_foreignActs (i : Nat) : (scan i).ForeignActs := by
  refine ForeignActs.bind (cursor_foreignActs i) fun c => ?_
  split
  · split
    · exact ForeignActs.bind (changeCursor_foreignActs i _) fun _ => ForeignActs.pure _
    · exact Stepwise.scan_foreignActs i
  · exact Stepwise.scan_foreignActs i

@[grind ←] theorem tokenText_foreignActs (i : Nat) : (tokenText i).ForeignActs := by
  refine ForeignActs.bind (cursor_foreignActs i) fun c => ?_
  split
  · split
    · exact ForeignActs.pure _
    · exact Stepwise.tokenText_foreignActs i
  · exact Stepwise.tokenText_foreignActs i

@[grind ←] theorem runScannerMethod_foreignActs (i : Nat) (arguments : List Value)
    (method : ScannerMethod) : (runScannerMethod i arguments method).ForeignActs := by
  cases method with
  | resetTokenState => exact ForeignActs.bind (changeCursor_foreignActs i _) fun _ => ForeignActs.pure _
  | scan => exact ForeignActs.map _ (scan_foreignActs i)
  | getTokenStart => exact ForeignActs.bind (cursor_foreignActs i) fun _ => ForeignActs.pure _
  | getTokenEnd => exact ForeignActs.bind (cursor_foreignActs i) fun _ => ForeignActs.pure _
  | getTokenText => exact tokenText_foreignActs i

end Eval

end ProxySession
