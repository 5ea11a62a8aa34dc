import ProxySession.Proofs.Attribution
import ProxySession.Proofs.ScannerStates

/-!
# Scanning again

Whatever a scanner session was asked before, the token at an offset is that of a new session over the text, and
one scan after the other finds the tokens that a new session finds at the offsets where they begin.
-/

namespace ProxySession

open Effect

variable {c : ContextId} {s : ScannerId} {K : KindTable} {r : ObjectRef} {i : Nat} {t t' : Tokenizer} {E : Engine}
  {w w₁ w₂ : World}

/-! ## Opening a session -/

theorem ScannerMethod.key_inj (m m' : ScannerMethod) :
    PropertyKey.ofString m.name = PropertyKey.ofString m'.name ↔ m = m' := by
  cases m <;> cases m' <;> decide +kernel

namespace Eval

/-- A new scanner object over a text is at the first unit. -/
theorem newScanner_run (E : Engine) (text : Units) (w : World) :
    ∃ r w₁, newScanner (.text text) E w = (.ok (.object r), w₁) ∧
      w₁.heap.IsScanner r w.heap.cursors.size ∧ w₁.At w.heap.cursors.size { text } ∧
      (∀ f, f.index < w.heap.objects.size → w₁.heap.object f = w.heap.object f) ∧
      w₁.contexts = w.contexts := by
  refine ⟨_, _, rfl, fun m => ?_, ?_, fun f hf => ?_, rfl⟩
  · -- The functions are made before the object, in the order of the methods.
    refine ⟨⟨w.heap.objects.size + m.ctorIdx⟩, Heap.lookup_own ?_, ?_⟩
    · rw [Heap.object, (getD_push _ _ _).trans (if_pos rfl)]
      cases m <;> simp [Object.lookup, Object.own?, Object.intrinsic?, List.find?,
        ScannerMethod.key_inj, ScannerMethod.ctorIdx]
    · rw [Heap.object]
      simp only [getD_push, Array.size_push]
      cases m <;> simp +arith [ScannerMethod.ctorIdx]
  · simp [World.At, Tokenizer.cursor]
  · rw [Heap.object]
    simp only [getD_push, Array.size_push]
    repeat rw [if_neg (by omega)]
    rfl

/-- The code of a scanner factory. -/
theorem eval_newScanner (frame : Frame) (text : Units) (htext : frame.arguments[0]? = some (.text text))
    (hroom : 2 * expressionSize ≤ E.room) :
    ∃ E', eval frame (.scanner (.argument 0)) E w = newScanner (.text text) E' w := by
  have hargument : eval frame (.argument 0) { E with room := E.room - expressionSize } w =
      (.ok (.text text), w) := by
    rw [eval, nested_run _ (by change expressionSize ≤ E.room - expressionSize; omega), htext]
    rfl
  refine ⟨{ E with room := E.room - expressionSize }, ?_⟩
  rw [eval, nested_run _ (by omega)]
  exact bind_of_ok hargument

end Eval

namespace ContextId

/-- The context is open and can make scanner objects: its factory makes one over the first argument, and the
codes go by the names of a table. -/
structure Scanning (c : ContextId) (K : KindTable) (w : World) : Prop where
  factory : ∃ f, (w.context c).custodian.get (w.context c).scannerFactory = .ok (.object f) ∧
    (w.heap.object f).kind = .function (.body (.scanner (.argument 0)))
  kinds : (w.context c).kinds = K

theorem Scanning.unmoved (h : c.Scanning K w) (hrest : w.Unmoved w₁) : c.Scanning K w₁ := by
  obtain ⟨f, hget, hkind⟩ := h.factory
  refine ⟨⟨f, ?_, ?_⟩, (hrest.kinds c).trans h.kinds⟩
  · rw [hrest.custodian, hrest.scannerFactory, hget]
  · rw [Heap.object, hrest.objects]
    exact hkind

/-- The factory is there, and its handle leads to it. -/
theorem Scanning.factory_run (h : c.Scanning K w) (E : Engine) :
    ∃ f, (w.context c).custodian.get (w.context c).scannerFactory = .ok (.object f) ∧
      (w.heap.object f).kind = .function (.body (.scanner (.argument 0))) ∧
      f.index < w.heap.objects.size ∧ c.function (w.context c).scannerFactory E w = (.ok (.object f), w) := by
  obtain ⟨f, hget, hkind⟩ := h.factory
  refine ⟨f, hget, hkind, ?_, ?_⟩
  · -- Past the end of the heap there are only plain objects.
    by_contra hn
    have hplain : w.heap.object f = .plain := getD_of_size_le (Nat.le_of_not_lt hn)
    rw [hplain] at hkind
    cases hkind
  · have hvalue : c.value (w.context c).scannerFactory E w = (.ok (.object f), w) := by
      rw [value, world_bind, hget]
      rfl
    rw [function, bind_of_ok hvalue, Operation.function_eq, if_pos (Heap.isFunction_of_kind hkind)]

/-- The factory makes a scanner object, and can make another one. -/
theorem newScannerObject_run (hE : E.Ready) (h : c.Scanning K w) (text : String) :
    ∃ r i w₁, c.newScannerObject text E w = (.ok r, w₁) ∧ w₁.heap.IsScanner r i ∧
      w₁.At i { text := Units.ofString text } ∧ c.Scanning K w₁ := by
  obtain ⟨n, room, rfl, hroom⟩ := hE.eq
  obtain ⟨f, hget, hkind, hbound, hfunction⟩ := h.factory_run (Engine.ofFuel (n + 1) room)
  obtain ⟨w₁, hrest, hheap, -, hcall⟩ := c.callFunction_run [.ofString text] n room hkind (by omega)
  obtain ⟨E', heval⟩ := Eval.eval_newScanner (E := Engine.ofFuel n (room - Eval.callSize)) (w := w₁.mark)
    ⟨.undefined, [.ofString text], .undefined⟩ (Units.ofString text) rfl
    (by rw [Engine.ofFuel_room]; omega)
  obtain ⟨r, w₂, hrun, hobject, hat, holds, hcontexts⟩ :=
    Eval.newScanner_run E' (Units.ofString text) w₁.mark
  have hmade := hcall _ _ (heval.trans hrun)
  have hcontext : w₂.context c = w₁.context c := congrArg (fun cs => cs.getD c.index default) hcontexts
  -- Neither the call nor the new object moves the factory.
  have h₂ : c.Scanning K w₂ := by
    refine ⟨⟨f, ?_, ?_⟩, ?_⟩
    · rw [hcontext, hrest.custodian, hrest.scannerFactory, hget]
    · have hsize : f.index < w₁.mark.heap.objects.size := by
        change f.index < w₁.heap.objects.size
        rwa [hheap]
      have hsame : w₁.mark.heap.object f = w.heap.object f := congrArg (Heap.object · f) hheap
      rw [holds f hsize, hsame, hkind]
    · rw [hcontext, hrest.kinds, h.kinds]
  have hmark : w₂.Unmoved w₂.mark := .of_same rfl rfl rfl
  refine ⟨r, _, w₂.mark.settled c, ?_, hobject, hat, h₂.unmoved (hmark.trans (.settled c w₂.mark))⟩
  rw [newScannerObject, world_bind, bind_of_ok hfunction, located_eq, bind_of_ok hmade]
  rfl

/-- A new session is tracked by its context, which stays as it is otherwise. -/
theorem newSession_run (hopen : (w.context c).custodian.closed = false) (text : String) (r : ObjectRef) :
    ∃ s w₁, c.newSession text r E w = (.ok s, w₁) ∧ w₁.heap = w.heap ∧ (w₁.scanner s).context = c ∧
      (w₁.scanner s).custodian.get (w₁.scanner s).handle = .ok (.object r) ∧
      ∃ resources references, w₁.context c =
        { w.context c with custodian := { (w.context c).custodian with resources }, references } := by
  let session : ScannerSession :=
    { context := c
      custodian := { name := "scanner", slots := #[some (.object r)], resources := [], closed := false }
      handle := ⟨0⟩, text, clones := 1 }
  obtain ⟨resources, hcustodian⟩ : ∃ resources, (w.context c).custodian.track
      (fun other => (w.scanner other).custodian.closed) ⟨w.scanners.size⟩ =
        .ok { (w.context c).custodian with resources } :=
    ⟨_, if_neg (by rw [hopen]; exact Bool.false_ne_true)⟩
  let tracked : Holdings := w.toHoldings.modifyContext c fun cx =>
    { cx with custodian := { (w.context c).custodian with resources } }
  let w₁ : World := World.holdContext c ({ w with scanners := w.scanners.push session }.updateContext c
    fun cx => { cx with custodian := { (w.context c).custodian with resources } })
  have hscanner : w₁.scanner ⟨w.scanners.size⟩ = session :=
    (getD_push w.scanners session _).trans (if_pos rfl)
  refine ⟨⟨w.scanners.size⟩, w₁, ?_, rfl, ?_, ?_, ?_⟩
  · rw [newSession, world_bind, hcustodian]
    rfl
  · rw [hscanner]
  · rw [hscanner]
    rfl
  · have hheld : w₁.context c = _ := Holdings.context_modifyContext c c
      (fun cx => { cx with references := cx.references + 1 }) tracked
    have htracked := Holdings.context_modifyContext c c
      (fun cx => { cx with custodian := { (w.context c).custodian with resources } }) w.toHoldings
    by_cases hvalid : c.index < w.contexts.size
    · have hvalid' : c.index < tracked.contexts.size := by simpa [tracked, Holdings.modifyContext] using hvalid
      rw [if_pos ⟨rfl, hvalid'⟩, htracked, if_pos ⟨rfl, hvalid⟩] at hheld
      exact ⟨_, _, hheld⟩
    · have hvalid' : ¬c.index < tracked.contexts.size := by simpa [tracked, Holdings.modifyContext] using hvalid
      rw [if_neg (fun h => hvalid' h.2), htracked, if_neg (fun h => hvalid h.2)] at hheld
      exact ⟨_, _, hheld⟩

/-- A session opens at the first unit of its text, and another one can be opened after it. -/
theorem scanner_run (hE : E.Ready) (h : c.Scanning K w) (text : String) :
    ∃ s r i w₁, c.scanner text E w = (.ok s, w₁) ∧ s.Scans K r i { text := Units.ofString text } w₁ ∧
      c.Scanning K w₁ := by
  obtain ⟨r, i, w₁, hobject, hscanner, hat, h₁⟩ := newScannerObject_run hE h text
  obtain ⟨f, hget, hkind⟩ := h₁.factory
  obtain ⟨s, w₂, hsession, hheap, hcontext, hhandle, resources, references, heq⟩ :=
    newSession_run (E := E) (Custodian.get_ok hget).1 text r
  have h₂ : c.Scanning K w₂ := by
    refine ⟨⟨f, ?_, ?_⟩, ?_⟩
    · rw [heq]
      exact hget
    · rw [hheap]
      exact hkind
    · rw [heq]
      exact h₁.kinds
  have hfresh : s.Scans K r i { text := Units.ofString text } w₂ := by
    refine ⟨?_, hhandle, ?_, ?_, .reset { text := Units.ofString text } 0⟩
    · rw [hcontext, h₂.kinds]
    · rw [hheap]
      exact hscanner
    · rw [World.At, hheap]
      exact hat
  obtain ⟨w₃, hreset, hrest, hscans⟩ := ScannerId.reset_yields 0 E w₂ hE hfresh
  have hlog : w₃.Unmoved (w₃.log .trace "opened scanner" [("len", toString text.utf8ByteSize)]) :=
    .of_same rfl rfl rfl
  refine ⟨s, r, i, _, ?_, hscans.move hlog hscans.machine hscans.regular, h₂.unmoved (hrest.trans hlog)⟩
  have hstop : (s.reset 0).onStop (World.dropScanner s) E w₂ = (.ok (), w₃) := by
    rw [onStop, hreset]
  rw [scanner, bind_of_ok hobject, bind_of_ok hsession, bind_of_ok hstop]
  rfl

end ContextId

/-! ## Histories -/

/-- A call of a scanner session. -/
inductive ScannerCall where
  | reset (p : UInt32)
  | scanNext
  | tokenStart
  | tokenEnd
  | tokenText
  | tokenAt (p : UInt32)

/-- The world after a call, however the call ended. -/
def ScannerCall.after (s : ScannerId) (E : Engine) (w : World) : ScannerCall → World
  | reset p => (s.reset p E w).2
  | scanNext => (s.scanNext E w).2
  | tokenStart => (s.tokenStart E w).2
  | tokenEnd => (s.tokenEnd E w).2
  | tokenText => (s.tokenText E w).2
  | tokenAt p => (s.tokenAt p E w).2

namespace ScannerId

/-- Where calls of a session lead to, one after the other, each on an engine of its own. -/
inductive History (s : ScannerId) (w : World) : List ScannerCall → World → Prop
  | nil : History s w [] w
  | call {calls : List ScannerCall} {w₁ : World} {E : Engine} (h : History s w calls w₁) (hE : E.Ready)
    (a : ScannerCall) : History s w (calls ++ [a]) (a.after s E w₁)

theorem Yields.after {α : Type} {x : Operation α} {out : Except (Stop SessionError) α}
    (hx : s.Yields K r i t x out t') (htext : t'.text = t.text) (hE : E.Ready) (h : s.Scans K r i t w) :
    ∃ t', t'.text = t.text ∧ s.Scans K r i t' (x E w).2 ∧ w.Unmoved (x E w).2 := by
  obtain ⟨w₁, hrun, hrest, h₁⟩ := hx E w hE h
  rw [hrun]
  exact ⟨t', htext, h₁, hrest⟩

/-- A call, successful or not, leaves the session over its text. -/
theorem Scans.after (hE : E.Ready) (h : s.Scans K r i t w) (a : ScannerCall) :
    ∃ t', t'.text = t.text ∧ s.Scans K r i t' (a.after s E w) ∧ w.Unmoved (a.after s E w) := by
  cases a with
  | reset p => exact (reset_yields p).after rfl hE h
  | scanNext => exact (scanNext_yields h.regular).after (Tokenizer.scan_text t) hE h
  | tokenStart => exact (tokenStart_yields h.regular).after rfl hE h
  | tokenEnd => exact (tokenEnd_yields h.regular).after rfl hE h
  | tokenText => exact (tokenText_yields h.regular).after rfl hE h
  | tokenAt p => exact (tokenAt_yields p).after (Tokenizer.scan_text _) hE h

theorem History.scans {calls : List ScannerCall} (hw : s.History w calls w₁) (h : s.Scans K r i t w) :
    ∃ t', t'.text = t.text ∧ s.Scans K r i t' w₁ ∧ w.Unmoved w₁ := by
  induction hw with
  | nil => exact ⟨t, rfl, h, .refl w⟩
  | call _ hE a ih =>
    obtain ⟨t₁, htext, h₁, hrest⟩ := ih
    obtain ⟨t₂, htext', h₂, hrest'⟩ := h₁.after hE a
    exact ⟨t₂, htext'.trans htext, h₂, hrest.trans hrest'⟩

/-- The kind of the last of `k + 1` tokens. -/
def scanMore (s : ScannerId) : Nat → Operation SyntaxKind
  | 0 => s.scanNext
  | k + 1 => do
    let _ ← s.scanNext
    s.scanMore k

end ScannerId

/-- The table has a name for each code that a scan answers with. -/
def KindTable.NamesTokens (K : KindTable) : Prop := ∀ code ∈ Tokenizer.codes, (K.kind? code).isSome

theorem KindTable.NamesTokens.hostKind (hK : K.NamesTokens) (t : Tokenizer) :
    ∃ name, Tokenizer.hostKind K t.scan.1 = .ok ⟨t.scan.1, name⟩ := by
  obtain ⟨kind, hkind⟩ := Option.isSome_iff_exists.1 (hK _ t.scan_code_mem)
  obtain ⟨name, _, rfl⟩ := Option.map_eq_some_iff.1 hkind
  refine ⟨name, ?_⟩
  rw [Tokenizer.hostKind, hkind]

namespace ScannerId

theorem scanMore_yields (hK : K.NamesTokens) (k : Nat) (ht : t.Regular) :
    s.Yields K r i t (s.scanMore k) (Tokenizer.hostKind K (Tokenizer.next^[k] t).scan.1)
      (Tokenizer.next^[k + 1] t) := by
  induction k generalizing t with
  | zero => exact scanNext_yields ht
  | succ k ih =>
    obtain ⟨name, hname⟩ := hK.hostKind t
    have hfirst := scanNext_yields (s := s) (K := K) (r := r) (i := i) ht
    rw [hname] at hfirst
    exact hfirst.bind_ok (ih ht.next)

/-! ## Sessions over one text -/

/-- Two sessions over one text find the same token at an offset, wherever they are. -/
theorem Scans.tokenAt_eq {s' : ScannerId} {r' : ObjectRef} {i' : Nat} {E' : Engine} (hE : E.Ready)
    (hE' : E'.Ready) (h : s.Scans K r i t w) (h' : s'.Scans K r' i' t' w₁) (htext : t.text = t'.text)
    (p : UInt32) : (s.tokenAt p E w).1 = (s'.tokenAt p E' w₁).1 := by
  obtain ⟨_, hrun, _⟩ := tokenAt_yields p E w hE h
  obtain ⟨_, hrun', _⟩ := tokenAt_yields p E' w₁ hE' h'
  rw [hrun, hrun']
  exact Tokenizer.hostToken_congr htext rfl

/-- A position that is read as an offset is the integer of that offset. -/
theorem position_of_offset {method : String} {p : Position} {n : ℤ} {q : UInt32} (hp : p.Is n)
    (h : Tokenizer.hostOffset method p = .ok q) : p = .int q.toInt32 := by
  rw [Tokenizer.hostOffset] at h
  cases hp with
  | int k =>
    simp only [Value.exactInt32?] at h
    split at h
    · cases h
    · cases h
      rw [Int32.toInt32_toUInt32]
  | float hx hl _ =>
    have hnone : Value.exactInt32? (.float _) = none :=
      (Position.Is.float hx hl ‹_›).exactInt32.trans (if_neg (by omega))
    rw [hnone] at h
    cases h

end ScannerId

/-! ## Scanning and rescanning -/

namespace Session

/-- A scanner session, once it is open, answers for each offset as a new session over its text does, whatever it was
asked before: with the same token or with the same error. The token behind the current one is the token that a
new session finds at the end of the current one. And the end of the text comes after at most one token more than
there are units in the text, of which a string of the language has fewer than `2 ^ 53`. -/
theorem rescanning_ignores_history (hc : c.Scanning K w) (hK : K.NamesTokens) (hE : E.Ready) (text : String) :
    ∃ s w₀, c.scanner text E w = (.ok s, w₀) ∧ ∀ calls w₁, s.History w₀ calls w₁ → c.Scanning K w₁ ∧
      (∀ (d : ContextId) (w' : World) (E' : Engine), d.Scanning K w' → E'.Ready →
        ∃ s' w₂, d.scanner text E' w' = (.ok s', w₂) ∧
          (∀ (p : UInt32) (E₁ E₂ : Engine), E₁.Ready → E₂.Ready →
            (s.tokenAt p E₁ w₁).1 = (s'.tokenAt p E₂ w₂).1) ∧
          ((Units.ofString text).length < 2 ^ 53 →
            ∀ (q : UInt32) (E₀ E₁ E₂ : Engine) (w₃ : World), E₀.Ready → E₁.Ready → E₂.Ready →
              s.tokenEnd E₀ w₁ = (.ok q, w₃) →
              (s.nextToken E₁ w₃).1 = (s'.tokenAt q E₂ w₂).1)) ∧
      ((Units.ofString text).length < 2 ^ 53 → ∀ E' : Engine, E'.Ready →
        ∃ k ≤ (Units.ofString text).length + 1, ∃ name,
          (s.scanMore k E' w₁).1 = .ok ⟨Tokenizer.endOfFile, name⟩) := by
  obtain ⟨s, r, i, w₀, hopen, hscans, hc₀⟩ := ContextId.scanner_run hE hc text
  refine ⟨s, w₀, hopen, fun calls w₁ hw => ?_⟩
  obtain ⟨t, htext, h, hrest⟩ := hw.scans hscans
  change t.text = Units.ofString text at htext
  refine ⟨hc₀.unmoved hrest, fun d w' E' hd hE' => ?_, fun hlen E' hE' => ?_⟩
  · obtain ⟨s', r', i', w₂, hopen', h', _⟩ := ContextId.scanner_run hE' hd text
    refine ⟨s', w₂, hopen', fun p E₁ E₂ h₁ h₂ => h.tokenAt_eq h₁ h₂ h' htext p, ?_⟩
    intro hlen q E₀ E₁ E₂ w₃ h₀ h₁ h₂ hend
    obtain ⟨n, hn⟩ := h.regular.integer (by rw [htext]; exact hlen)
    obtain ⟨w₃', hrun, _, h₃⟩ := ScannerId.tokenEnd_yields h.regular E₀ w₁ h₀ h
    rw [hend] at hrun
    obtain ⟨hq, rfl⟩ := Prod.mk.inj hrun
    obtain ⟨_, hnext, _⟩ := ScannerId.nextToken_yields h₃.regular E₁ w₃ h₁ h₃
    obtain ⟨_, hat, _⟩ := ScannerId.tokenAt_yields q E₂ w₂ h₂ h'
    rw [hnext, hat]
    exact Tokenizer.hostToken_congr htext (ScannerId.position_of_offset hn hq.symm)
  · obtain ⟨k, hk, hend⟩ := h.regular.reaches_end (by rw [htext]; exact hlen)
    obtain ⟨_, hrun, _⟩ := ScannerId.scanMore_yields hK k h.regular E' w₁ hE' h
    obtain ⟨name, hname⟩ := hK.hostKind (Tokenizer.next^[k] t)
    refine ⟨k, by rw [← htext]; exact hk, name, ?_⟩
    rw [hrun, hname, hend]

/-! ## A sample session -/

/-- A compiler that makes scanner objects and names their codes. -/
def scanHeap : Heap :=
  let reference (name : String) (i : Nat) : PropertyDescription :=
    ⟨.ofString name, .value (.object ⟨i⟩), true⟩
  let kind (name : String) (code : Int32) : PropertyDescription := ⟨.ofString name, .value (.int code), true⟩
  .ofDescriptions
    [⟨"program", .plain, []⟩, ⟨"checker", .plain, []⟩,
      ⟨"createScanner", .function (.scanner (.argument 0)), []⟩,
      ⟨"getNodeId", .function (.value (.int 7)), []⟩,
      ⟨"syntaxKinds", .plain, [kind "Unknown" 0, kind "EndOfFileToken" 1, kind "NumericLiteral" 9,
        kind "StringLiteral" 11, kind "Identifier" 80, kind "LetKeyword" 121, kind "ConstKeyword" 87,
        kind "NumberKeyword" 150, kind "StringKeyword" 154, kind "EqualsToken" 64,
        kind "SemicolonToken" 27, kind "ColonToken" 59, kind "CommaToken" 28]⟩,
      ⟨"parse", .plain, [reference "program" 0, reference "checker" 1,
        reference "createScanner" 2, reference "getNodeId" 3, reference "syntaxKinds" 4]⟩] #[]

/-- The session's context is open. -/
def scanWorld : World := last 3 scanHeap [] [.mk (.open (.value (.object ⟨5⟩)) {}) "cx" (some "cx")]

/-- An engine with one level of nesting. -/
def shallowEngine : Engine := Engine.ofFuel 1 stackSize

theorem shallowEngine_ready : shallowEngine.Ready := ⟨0, stackSize, rfl, by decide⟩

theorem factory_of_matches {kind : ObjectKind}
    (h : (kind matches .function (.body (.scanner (.argument 0)))) = true) :
    kind = .function (.body (.scanner (.argument 0))) := by
  split at h
  · rfl
  · cases h

theorem scanWorld_scanning :
    (⟨0⟩ : ContextId).Scanning (scanWorld.context ⟨0⟩).kinds scanWorld := by
  refine ⟨⟨⟨2⟩, ?_, ?_⟩, rfl⟩
  · have hopen : (scanWorld.context ⟨0⟩).custodian.closed = false := by decide +kernel
    have hslot : (scanWorld.context ⟨0⟩).custodian.slots[
        (scanWorld.context ⟨0⟩).scannerFactory.index.toNat]? = some (some (.object ⟨2⟩)) := by
      decide +kernel
    exact Custodian.get_of_holds hopen hslot
  · exact factory_of_matches (by decide +kernel)

theorem scanWorld_names : (scanWorld.context ⟨0⟩).kinds.NamesTokens := by
  -- Over the list of the codes: to decide the quantifier could mean to go through all numbers.
  have hall : (Tokenizer.codes.all fun code => ((scanWorld.context ⟨0⟩).kinds.kind? code).isSome) = true := by
    decide +kernel
  exact List.all_eq_true.1 hall

/-- A session that was moved into the second word and on finds the tokens that a new one finds. -/
theorem rescanning_ignores_history_sample :
    (⟨0⟩ : ContextId).Scanning (scanWorld.context ⟨0⟩).kinds scanWorld ∧
    (scanWorld.context ⟨0⟩).kinds.NamesTokens ∧ shallowEngine.Ready ∧
    ∃ s w₀, (⟨0⟩ : ContextId).scanner "let x" shallowEngine scanWorld = (.ok s, w₀) ∧
      let moved := (ScannerCall.reset 4).after s shallowEngine w₀
      let scanned := ScannerCall.scanNext.after s shallowEngine moved
      ∃ s' w₂, (⟨0⟩ : ContextId).scanner "let x" shallowEngine scanned = (.ok s', w₂) ∧
        ∀ p, (s.tokenAt p shallowEngine scanned).1 = (s'.tokenAt p shallowEngine w₂).1 := by
  obtain ⟨s, w₀, hopen, hhistory⟩ := rescanning_ignores_history scanWorld_scanning scanWorld_names
    shallowEngine_ready "let x"
  refine ⟨scanWorld_scanning, scanWorld_names, shallowEngine_ready, s, w₀, hopen, ?_⟩
  have hscanned := (ScannerId.History.nil (s := s) (w := w₀)).call shallowEngine_ready (.reset 4)
    |>.call shallowEngine_ready .scanNext
  obtain ⟨hc, hsame, _⟩ := hhistory _ _ hscanned
  obtain ⟨s', w₂, hopen', heq, _⟩ := hsame ⟨0⟩ _ shallowEngine hc shallowEngine_ready
  exact ⟨s', w₂, hopen', fun p => heq p _ _ shallowEngine_ready shallowEngine_ready⟩

end Session

end ProxySession
