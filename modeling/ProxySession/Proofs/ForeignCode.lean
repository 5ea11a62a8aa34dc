import ProxySession.Proofs.ForeignActs
import ProxySession.Session.Evaluation.Thrown

/-!
# Uses of foreign values

Calls, property accesses and conversions to primitives are made of foreign acts: they read and change the heap
and add to the record of crossings, and what else happens while they run happens in the functions that
they call.
-/

namespace ProxySession

namespace Eval

open Effect

variable {ε α : Type}

/-! ## Calls and properties -/

@[grind ←] theorem alloc_foreignActs (o : Object) : (alloc o : Effect ε ObjectRef).ForeignActs :=
  ForeignActs.ofHeap (fun _ => rfl) fun h => .alloc h o

theorem changeHeap_foreignActs {f : Heap → Heap} (hf : ∀ h : Heap, h.Evolves (f h)) :
    (changeHeap f : Effect ε Unit).ForeignActs :=
  ForeignActs.ofChange (fun _ => rfl) hf

/-- A change of one object that leaves its kind, or an array an array. -/
theorem changeObject_foreignActs (r : ObjectRef) {f : Object → Object}
    (hf : ∀ o : Object, o.kind.Stays (f o).kind) :
    (changeHeap fun heap => heap.update r f : Effect ε Unit).ForeignActs :=
  changeHeap_foreignActs fun h => .update h r hf

@[grind ←] theorem newSymbol_foreignActs (description : Option Units) :
    (newSymbol description : Effect ε Value).ForeignActs :=
  ForeignActs.ofHeap (fun _ => rfl) fun _ => .of_objects rfl

@[grind ←] theorem stackTrace_foreignActs : (stackTrace : Effect ε Property).ForeignActs := by
  unfold stackTrace
  grind

@[grind ←] theorem newError_foreignActs (message : Value) :
    (newError message : Effect ε ObjectRef).ForeignActs := by
  unfold newError
  grind

@[grind ←] theorem newEngineError_foreignActs (family : Family) (properties : List Property) :
    (newEngineError family properties).ForeignActs := by
  unfold newEngineError
  grind

@[grind ←] theorem raiseError_foreignActs (message : String) :
    (raiseError message : Eval α).ForeignActs := by
  unfold raiseError
  grind

@[grind ←] theorem raise_foreignActs (family : Family) (message : String) :
    (raise family message : Eval α).ForeignActs := by
  unfold raise
  grind

@[grind ←] theorem raiseTypeError_foreignActs (message : String) :
    (raiseTypeError message : Eval α).ForeignActs := by
  unfold raiseTypeError
  grind

@[grind ←] theorem nested_foreignActs (size : Nat) {x : Eval α} (hx : x.ForeignActs) :
    (nested size x).ForeignActs := by
  unfold nested
  grind

theorem cross_foreign (f : World → Crossing) :
    (change fun w => w.cross (f w) : Effect ε Unit).Foreign :=
  Foreign.change fun w => .cross w _

/-- How a value is shown depends on the heap alone. -/
theorem showValue_congr {w w' : World} (h : w'.heap = w.heap) (v : Value) :
    w'.showValue v = w.showValue v := by
  cases v <;> simp only [World.showValue, World.labelOf, h]

theorem labelOf_congr {w w' : World} (h : w'.heap = w.heap) (r : ObjectRef) :
    w'.labelOf r = w.labelOf r := by
  rw [World.labelOf, World.labelOf, h]

@[grind ←] theorem callFunction_foreignActs (f : ObjectRef) (c : Callable) (receiver : Value)
    (arguments : List Value) : (callFunction f c receiver arguments).ForeignActs := by
  cases c with
  | body _ | scannerMethod _ _ =>
    refine nested_foreignActs _ (.bind (.cross fun w w' h => ?_) fun _ => .run _ _ _)
    rw [labelOf_congr h, showValue_congr h, funext (showValue_congr h)]
  | getter _ _ =>
    refine nested_foreignActs _ (.bind (.cross fun w w' h => ?_) fun _ => .run _ _ _)
    rw [showValue_congr h]
  | builtIn _ | bound _ _ _ => exact nested_foreignActs _ (ForeignActs.run _ _ _)
  | host _ => exact ForeignActs.run _ _ _

@[grind ←] theorem callValue_foreignActs (f receiver : Value) (arguments : List Value) :
    (callValue f receiver arguments).ForeignActs := by
  unfold callValue
  grind

@[grind ←] theorem apply_foreignActs (f receiver : Value) (arguments : List Value) :
    (apply f receiver arguments).ForeignActs := by
  unfold apply
  grind

@[grind ←] theorem requireObject_foreignActs (v : Value) : (requireObject v).ForeignActs := by
  unfold requireObject
  grind

@[grind ←] theorem read_foreignActs (v : Value) (key : PropertyKey) : (read v key).ForeignActs := by
  unfold read
  grind

@[grind ←] theorem raiseUnreadable_foreignActs (key : PropertyKey) (value : String) :
    (raiseUnreadable key value : Eval α).ForeignActs := by
  unfold raiseUnreadable
  grind

@[grind ←] theorem readMember_foreignActs (v : Value) (key : PropertyKey) :
    (readMember v key).ForeignActs := by
  unfold readMember
  grind

@[grind ←] theorem getProperty_foreignActs (r : ObjectRef) (key : PropertyKey) :
    (getProperty r key).ForeignActs := by
  unfold getProperty
  grind

/-- A property that is defined leaves the kind of the object, or makes an array longer. -/
theorem stays_define (o : Object) (p : Property) : o.kind.Stays (o.define p).kind := by
  cases hk : o.kind with
  | array length =>
    simp only [Object.define, hk]
    split
    · exact .array _ _
    · exact .same _
  | _ =>
    simp only [Object.define, hk]
    exact .same _

@[grind ←] theorem defineProperty_foreignActs (r : ObjectRef) (p : Property) :
    (defineProperty r p).ForeignActs := by
  unfold defineProperty
  refine ForeignActs.read (fun w w' h => by simp only [h]) fun w => ?_
  split
  · exact raiseTypeError_foreignActs _
  · exact changeObject_foreignActs r fun o => stays_define o p

@[grind ←] theorem setProperty_foreignActs (r : ObjectRef) (key : PropertyKey) (v : Value) :
    (setProperty r key v).ForeignActs := by
  unfold setProperty
  grind

@[grind ←] theorem assign_foreignActs (r : ObjectRef) (key : PropertyKey) (v : Value) :
    (assign r key v).ForeignActs := by
  unfold assign
  grind

/-! ## Primitives -/

@[grind ←] theorem primitiveBy_foreignActs (r : ObjectRef) (methods : List String) :
    (primitiveBy r methods).ForeignActs := by
  induction methods with
  | nil => exact raiseTypeError_foreignActs _
  | cons method rest ih =>
    unfold primitiveBy
    grind

@[grind ←] theorem primitive_foreignActs (hint : String) (methods : List String) (v : Value) :
    (primitive hint methods v).ForeignActs := by
  unfold primitive
  split
  · refine ForeignActs.read (fun w w' h => by simp only [h]) fun w =>
      ForeignActs.bind (getProperty_foreignActs _ _) fun f => ?_
    split
    · exact primitiveBy_foreignActs _ methods
    · exact primitiveBy_foreignActs _ methods
    · refine ForeignActs.bind (apply_foreignActs _ _ _) fun x => ?_
      split
      · exact raiseTypeError_foreignActs _
      · exact ForeignActs.pure x
  · exact ForeignActs.pure v

@[grind ←] theorem textPrimitive_foreignActs (v : Value) : (textPrimitive v).ForeignActs :=
  primitive_foreignActs _ _ v

@[grind ←] theorem numberPrimitive_foreignActs (v : Value) : (numberPrimitive v).ForeignActs :=
  primitive_foreignActs _ _ v

@[grind ←] theorem anyPrimitive_foreignActs (v : Value) : (anyPrimitive v).ForeignActs :=
  primitive_foreignActs _ _ v

@[grind ←] theorem primitiveText_foreignActs (v : Value) : (primitiveText v).ForeignActs := by
  unfold primitiveText
  grind

@[grind ←] theorem textOf_foreignActs (v : Value) : (textOf v).ForeignActs := by
  unfold textOf
  grind

@[grind ←] theorem keyOf_foreignActs (v : Value) : (keyOf v).ForeignActs := by
  unfold keyOf
  grind

@[grind ←] theorem primitiveNumeric_foreignActs (v : Value) : (primitiveNumeric v).ForeignActs := by
  unfold primitiveNumeric
  grind

@[grind ←] theorem numericOf_foreignActs (v : Value) : (numericOf v).ForeignActs := by
  unfold numericOf
  grind

@[grind ←] theorem numberOf_foreignActs (v : Value) : (numberOf v).ForeignActs := by
  unfold numberOf
  grind

@[grind ←] theorem comparison_foreignActs (a b : Value) : (comparison a b).ForeignActs := by
  unfold comparison
  grind

@[grind ←] theorem isBelow_foreignActs (a b : Value) : (isBelow a b).ForeignActs := by
  unfold isBelow
  grind

@[grind ←] theorem isAtLeast_foreignActs (a b : Value) : (isAtLeast a b).ForeignActs := by
  unfold isAtLeast
  grind

@[grind ←] theorem sumWithOne_foreignActs (v : Value) : (sumWithOne v).ForeignActs := by
  unfold sumWithOne
  grind

/-! ## Thrown values -/

@[grind ←] theorem errorText_foreignActs (r : ObjectRef) (name : String) :
    (errorText r name : Effect ε (Option String)).ForeignActs := by
  unfold errorText
  grind

@[grind ←] theorem thrownText_foreignActs (v : Value) :
    (thrownText v : Effect ε String).ForeignActs := by
  unfold thrownText
  grind

end Eval

end ProxySession
