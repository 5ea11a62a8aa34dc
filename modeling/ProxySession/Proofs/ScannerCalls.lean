import ProxySession.Proofs.Resurfacing
import ProxySession.Proofs.UntouchedContexts
import ProxySession.Proofs.TokenMachine
import ProxySession.Session.Run
import ProxySession.Session.Scanning

/-!
# Calls of a scanner object

A call of a method of a scanner object is one step of the machine behind it: it answers as the machine does,
moves the cursor, and leaves the rest of the world alone.
-/

namespace ProxySession

open Effect

variable {E : Engine} {w w₁ w₂ : World} {c : ContextId} {r : ObjectRef} {i : Nat} {t : Tokenizer}

/-! ## Objects -/

namespace Heap

variable {h h' : Heap}

theorem ancestry_congr (ho : h'.objects = h.objects) (generations : Nat) (r : ObjectRef) :
    h'.ancestry generations r = h.ancestry generations r := by
  induction generations generalizing r with
  | zero => rfl
  | succ generations ih => simp only [ancestry, object, ho, ih]

theorem lookup_congr (ho : h'.objects = h.objects) (r : ObjectRef) (key : PropertyKey) :
    h'.lookup r key = h.lookup r key := by
  simp only [lookup, lineage, object, ho, ancestry_congr ho]

/-- An object with the methods of a scanner, which keep their state in one cursor. -/
def IsScanner (h : Heap) (r : ObjectRef) (i : Nat) : Prop :=
  ∀ m : ScannerMethod, ∃ f, h.lookup r (.ofString m.name) = some (.data (.object f)) ∧
    (h.object f).kind = .function (.scannerMethod i m)

theorem IsScanner.congr (ho : h'.objects = h.objects) (hs : h.IsScanner r i) : h'.IsScanner r i := by
  intro m
  obtain ⟨f, hf, hkind⟩ := hs m
  refine ⟨f, (lookup_congr ho r _).trans hf, ?_⟩
  rw [object, ho]
  exact hkind

end Heap

/-! ## What calls leave alone -/

/-- From one world to the other, no object, no scanner session and no context has changed, up to the failures that
wait in a context. -/
structure World.Unmoved (w w' : World) : Prop where
  objects : w'.heap.objects = w.heap.objects
  scanners : w'.scanners = w.scanners
  contexts : ∀ c, ∃ pending, w'.context c = { w.context c with pending }

namespace World.Unmoved

theorem of_same (ho : w₁.heap.objects = w.heap.objects) (hs : w₁.scanners = w.scanners)
    (hc : w₁.contexts = w.contexts) : w.Unmoved w₁ where
  objects := ho
  scanners := hs
  contexts c := ⟨(w.context c).pending, by rw [Holdings.context, hc]; rfl⟩

theorem refl (w : World) : w.Unmoved w := of_same rfl rfl rfl

theorem trans (h : w.Unmoved w₁) (h' : w₁.Unmoved w₂) : w.Unmoved w₂ where
  objects := h'.objects.trans h.objects
  scanners := h'.scanners.trans h.scanners
  contexts c := by
    obtain ⟨p, hp⟩ := h.contexts c
    obtain ⟨p', hp'⟩ := h'.contexts c
    exact ⟨p', hp'.trans (by rw [hp])⟩

theorem settled (c : ContextId) (w : World) : w.Unmoved (w.settled c) where
  objects := rfl
  scanners := rfl
  contexts d := by
    rw [settled_context]
    split
    · exact ⟨[], rfl⟩
    · exact ⟨_, rfl⟩

theorem kinds (h : w.Unmoved w₁) (c : ContextId) : (w₁.context c).kinds = (w.context c).kinds := by
  obtain ⟨p, hp⟩ := h.contexts c
  rw [hp]

theorem custodian (h : w.Unmoved w₁) (c : ContextId) :
    (w₁.context c).custodian = (w.context c).custodian := by
  obtain ⟨p, hp⟩ := h.contexts c
  rw [hp]

theorem scannerFactory (h : w.Unmoved w₁) (c : ContextId) :
    (w₁.context c).scannerFactory = (w.context c).scannerFactory := by
  obtain ⟨p, hp⟩ := h.contexts c
  rw [hp]

theorem scanner (h : w.Unmoved w₁) (s : ScannerId) : w₁.scanner s = w.scanner s := by
  rw [Holdings.scanner, h.scanners]
  rfl

end World.Unmoved

/-! ## Engines -/

/-- An engine that can call a function from the top of a session: there is a level of nesting left, and room for
a call and two expressions in it. -/
structure Engine.Ready (E : Engine) : Prop where
  eq : ∃ n room, E = Engine.ofFuel (n + 1) room ∧ Eval.callSize + 2 * Eval.expressionSize ≤ room

theorem Eval.nested_run {α : Type} {size : Nat} (x : Eval α) (h : size ≤ E.room) (w : World) :
    Eval.nested size x E w = x { E with room := E.room - size } w := by
  change (if E.room < size then Eval.raise .rangeError "Maximum call stack size exceeded"
    else taking size x : Eval α) E w = _
  rw [if_neg (by omega)]
  rfl

theorem Engine.ofFuel_room (n room : Nat) : (Engine.ofFuel n room).room = room := by
  cases n <;> rfl

theorem Heap.isFunction_of_kind {h : Heap} {f : ObjectRef} {code : Callable}
    (hf : (h.object f).kind = .function code) : h.isFunction (.object f) = true := by
  rw [isFunction, callable?, Object.callable?, hf]
  rfl

/-- Calling a function runs its code on the next level. -/
theorem Eval.callValue_run {f : ObjectRef} {code : Callable} (receiver : Value) (arguments : List Value)
    (n room : Nat) (hf : (w.heap.object f).kind = .function code)
    (hcode : (∃ e, code = .body e) ∨ ∃ i m, code = .scannerMethod i m) (hroom : Eval.callSize ≤ room) :
    ∃ w₁, w.Unmoved w₁ ∧ w₁.heap = w.heap ∧ w₁.hostCalls = w.hostCalls ∧
      Eval.callValue (.object f) receiver arguments (Engine.ofFuel (n + 1) room) w =
        (code.enter receiver arguments).marked (Engine.ofFuel n (room - Eval.callSize)) w₁ := by
  have hcallable : w.heap.callable? (.object f) = some (f, code) := by
    rw [Heap.callable?, Object.callable?, hf]
    rfl
  refine ⟨w.cross (.call (.text (w.labelOf f)) (w.showValue receiver) (arguments.map w.showValue)),
    .of_same rfl rfl rfl, rfl, ?_, ?_⟩
  · simp [World.hostCalls, World.tally, World.cross, Crossing.isHost]
  rw [Eval.callValue, world_bind, hcallable]
  change Eval.callFunction f code receiver arguments _ w = _
  obtain ⟨e, rfl⟩ | ⟨i, m, rfl⟩ := hcode
  · rw [Eval.callFunction, Eval.nested_run _ hroom]
    rfl
  · rw [Eval.callFunction, Eval.nested_run _ hroom]
    rfl

theorem Effect.marked_ok {ε α : Type} {x : Effect ε α} {a : α} (h : x E w.mark = (.ok a, w₁)) :
    x.marked E w = (.ok a, w₁.mark) := by
  rw [marked, h]

/-- A call of a function with a body gives what the body gives, and all failures are settled then. -/
theorem ContextId.callFunction_run (c : ContextId) {f : ObjectRef} {e : Expr} (arguments : List Value)
    (n room : Nat) (hf : (w.heap.object f).kind = .function (.body e)) (hroom : Eval.callSize ≤ room) :
    ∃ w₁, w.Unmoved w₁ ∧ w₁.heap = w.heap ∧ w₁.hostCalls = w.hostCalls ∧
      ∀ x w₂, Eval.eval ⟨.undefined, arguments, .undefined⟩ e (Engine.ofFuel n (room - Eval.callSize)) w₁.mark =
          (.ok x, w₂) →
        c.callFunction (.object f) arguments (Engine.ofFuel (n + 1) room) w = (.ok x, w₂.mark.settled c) := by
  obtain ⟨w₁, hrest, hheap, hcalls, hcall⟩ := Eval.callValue_run .undefined arguments n room hf
    (.inl ⟨_, rfl⟩) hroom
  refine ⟨w₁, hrest, hheap, hcalls, fun x w₂ hrun => ?_⟩
  rw [callFunction, calling, bind_of_ok (reading_of_ok (hcall.trans (marked_ok hrun)))]
  rfl

/-! ## Methods -/

namespace Tokenizer

/-- The cursor of a machine. -/
def cursor (t : Tokenizer) : Cursor := ⟨.text t.text, t.position, t.start⟩

/-- What a method answers, and the machine after it. -/
def perform (t : Tokenizer) (arguments : List Value) : ScannerMethod → Value × Tokenizer
  | .resetTokenState => (.undefined, t.reset (arguments.headD .undefined))
  | .scan => (.int t.scan.1, t.next)
  | .getTokenStart => (t.start, t)
  | .getTokenEnd => (t.position, t)
  | .getTokenText => (.text t.tokenText, t)

end Tokenizer

/-- The cursor is at the state of the machine. -/
def World.At (w : World) (i : Nat) (t : Tokenizer) : Prop := w.heap.cursors[i]? = some t.cursor

namespace Eval

theorem cursor_run {u : Cursor} (h : w.heap.cursors[i]? = some u) : cursor i E w = (.ok u, w) := by
  change ((Except.ok (w.heap.cursors.getD i default) : Except (Stop Value) Cursor), w) = _
  rw [Array.getD_eq_getD_getElem?, h]
  rfl

theorem changeCursor_run {u : Cursor} (f : Cursor → Cursor) (h : w.heap.cursors[i]? = some u) :
    ∃ w₁, changeCursor i f E w = (.ok (), w₁) ∧ w.Unmoved w₁ ∧ w₁.heap.cursors[i]? = some (f u) := by
  refine ⟨_, rfl, .of_same rfl rfl rfl, ?_⟩
  change (w.heap.cursors.modify i f)[i]? = _
  rw [Array.getElem?_modify, if_pos rfl, h]
  rfl

/-- A method of a scanner object is a step of its machine. -/
theorem runScannerMethod_run (arguments : List Value) (m : ScannerMethod) (ht : t.Regular) (h : w.At i t) :
    ∃ w₁, runScannerMethod i arguments m E w = (.ok (t.perform arguments m).1, w₁) ∧ w.Unmoved w₁ ∧
      w₁.At i (t.perform arguments m).2 := by
  have hposition := Position.isSettled_of_isNumber ht.position
  have hstart := Position.isSettled_of_isNumber ht.start
  have hmachine : t.cursor.tokenizer? = some t := rfl
  cases m with
  | resetTokenState =>
    obtain ⟨w₁, hrun, hrest, hat⟩ := changeCursor_run (E := E) (·.reset (arguments.headD .undefined)) h
    exact ⟨w₁, bind_of_ok hrun, hrest, hat⟩
  | scan =>
    obtain ⟨w₁, hrun, hrest, hat⟩ := changeCursor_run (E := E) (·.moveTo t.scan.2) h
    refine ⟨w₁, ?_, hrest, ?_⟩
    · have hscan : scan i E w = (.ok t.scan.1, w₁) := by
        rw [scan, bind_of_ok (cursor_run h), hmachine]
        simp only [hposition, if_true]
        exact bind_of_ok hrun
      change ((Value.int <$> scan i : Eval Value) E w) = _
      rw [map_eq, hscan]
      rfl
    · have hcursor : t.cursor.moveTo t.scan.2 = t.next.cursor := by
        simp [Tokenizer.cursor, Tokenizer.next, Cursor.moveTo]
      rw [hcursor] at hat
      exact hat
  | getTokenStart => exact ⟨w, bind_of_ok (cursor_run h), .refl w, h⟩
  | getTokenEnd => exact ⟨w, bind_of_ok (cursor_run h), .refl w, h⟩
  | getTokenText =>
    refine ⟨w, ?_, .refl w, h⟩
    change tokenText i E w = _
    rw [tokenText, bind_of_ok (cursor_run h), hmachine]
    simp only [hposition, hstart, Bool.and_self, if_true]
    rfl

end Eval

/-- A call of a method of a scanner object answers as the machine does. -/
theorem ContextId.callMethod_run (c : ContextId) (arguments : List Value) (m : ScannerMethod) (hE : E.Ready)
    (hr : w.heap.IsScanner r i) (ht : t.Regular) (h : w.At i t) :
    ∃ w₁, c.callMethod r m.name arguments E w = (.ok (t.perform arguments m).1, w₁) ∧ w.Unmoved w₁ ∧
      w₁.At i (t.perform arguments m).2 := by
  obtain ⟨n, room, rfl, hroom⟩ := hE.eq
  obtain ⟨f, hlookup, hkind⟩ := hr m
  have hfunction := Heap.isFunction_of_kind hkind
  obtain ⟨w₁, hrest, hheap, -, hcall⟩ := Eval.callValue_run (.object r) arguments n room
    hkind (.inr ⟨i, m, rfl⟩) (by omega)
  have hat : w₁.mark.At i t := by
    change w₁.heap.cursors[i]? = _
    rw [hheap]
    exact h
  obtain ⟨w₂, hrun, hrest', hat'⟩ := Eval.runScannerMethod_run
    (E := Engine.ofFuel n (room - Eval.callSize)) arguments m ht hat
  refine ⟨w₂.mark.settled c, ?_, ?_, hat'⟩
  · change (ForeignOperation.method r m.name arguments).run c _ w = _
    rw [ForeignOperation.run_method (getProperty_data hlookup), if_pos hfunction, calling,
      bind_of_ok (reading_of_ok (hcall.trans (marked_ok hrun)))]
    rfl
  · have hmark : w₁.Unmoved w₁.mark := .of_same rfl rfl rfl
    have hmark' : w₂.Unmoved w₂.mark := .of_same rfl rfl rfl
    exact hrest.trans (hmark.trans (hrest'.trans (hmark'.trans (.settled c _))))

end ProxySession
