import ProxySession.Proofs.ScannerCalls

/-!
# Operations of a scanner session

What an operation of a scanner session answers is a function of the state of the machine behind the session. A
session of the same text at the same position answers the same.
-/

namespace ProxySession

open Effect

/-! ## Answers of the machine on the host side -/

namespace Tokenizer

/-- The kind of a code, as a scan answers with it. -/
def hostKind (K : KindTable) (code : Int32) : Except (Stop SessionError) SyntaxKind :=
  match K.kind? code with
  | some kind => .ok kind
  | none => .error (.failed (.located "scanner" (.located "scan" (.unknownCode "SyntaxKind" code.toInt))))

/-- The offset of a position, as a method answers with it. -/
def hostOffset (method : String) (p : Position) : Except (Stop SessionError) UInt32 :=
  match p.exactInt32? with
  | some n =>
    if n < 0 then .error (.failed (.shapeMismatch "text offset" (toString n.toInt))) else .ok n.toUInt32
  | none => .error (.failed (.located "scanner" (.located method (.shapeMismatch "32-bit integer" "float"))))

/-- The text of the current token. -/
def hostText (t : Tokenizer) : Except (Stop SessionError) String :=
  match t.tokenText.decode with
  | .ok text => .ok text
  | .error offset =>
    .error (.failed (.located "scanner" (.located "getTokenText" (.brokenText offset))))

/-- The token that a scan takes. -/
def hostToken (K : KindTable) (t : Tokenizer) : Except (Stop SessionError) Token := do
  let kind ← hostKind K t.scan.1
  let start ← hostOffset "getTokenStart" t.next.start
  let stop ← hostOffset "getTokenEnd" t.next.position
  let text ← t.next.hostText
  pure { kind, start, stop, text }

variable {t t' : Tokenizer} {K : KindTable}

/-- The token depends on the text and the position alone. -/
theorem hostToken_congr (htext : t.text = t'.text) (hposition : t.position = t'.position) :
    t.hostToken K = t'.hostToken K := by
  have heq : { t with start := t'.start } = t' := by
    obtain ⟨text, position, start⟩ := t
    cases htext
    cases hposition
    rfl
  have hscan : t.scan = t'.scan := by
    rw [← scan_start t t'.start, heq]
  rw [hostToken, hostToken, next, next, hscan]

end Tokenizer

/-! ## Sessions -/

variable {α β : Type} {s : ScannerId} {K : KindTable} {r : ObjectRef} {i : Nat} {t t' t'' : Tokenizer} {E : Engine}
  {w w₁ w₂ : World}

namespace ScannerId

/-- The next token with all that the session tells of it. -/
def nextToken (s : ScannerId) : Operation Token := do
  let kind ← s.scanNext
  let start ← s.tokenStart
  let stop ← s.tokenEnd
  let text ← s.tokenText
  pure { kind, start, stop, text }

/-- The session is open over a scanner object whose machine is at a state, and its context names the codes by
a table. -/
structure Scans (s : ScannerId) (K : KindTable) (r : ObjectRef) (i : Nat) (t : Tokenizer) (w : World) :
    Prop where
  kinds : (w.context (w.scanner s).context).kinds = K
  handle : (w.scanner s).custodian.get (w.scanner s).handle = .ok (.object r)
  object : w.heap.IsScanner r i
  machine : w.At i t
  regular : t.Regular

theorem Scans.move (h : s.Scans K r i t w) (hrest : w.Unmoved w₁) (hat : w₁.At i t') (ht : t'.Regular) :
    s.Scans K r i t' w₁ where
  kinds := by rw [hrest.scanner, hrest.kinds, h.kinds]
  handle := by rw [hrest.scanner, h.handle]
  object := h.object.congr hrest.objects
  machine := hat
  regular := ht

/-- From every world where the session is at the first state, the operation ends with the result and leaves
the session at the second one. -/
def Yields (s : ScannerId) (K : KindTable) (r : ObjectRef) (i : Nat) (t : Tokenizer) (x : Operation α)
    (out : Except (Stop SessionError) α) (t' : Tokenizer) : Prop :=
  ∀ E w, E.Ready → s.Scans K r i t w → ∃ w₁, x E w = (out, w₁) ∧ w.Unmoved w₁ ∧ s.Scans K r i t' w₁

namespace Yields

theorem pure (a : α) : s.Yields K r i t (Pure.pure a : Operation α) (.ok a) t :=
  fun _ w _ h => ⟨w, rfl, .refl w, h⟩

theorem bind_ok {x : Operation α} {f : α → Operation β} {a : α} {out : Except (Stop SessionError) β}
    (hx : s.Yields K r i t x (.ok a) t') (hf : s.Yields K r i t' (f a) out t'') :
    s.Yields K r i t (x >>= f) out t'' := by
  intro E w hE h
  obtain ⟨w₁, hrun, hrest, h₁⟩ := hx E w hE h
  obtain ⟨w₂, hrun', hrest', h₂⟩ := hf E w₁ hE h₁
  exact ⟨w₂, (bind_of_ok hrun).trans hrun', hrest.trans hrest', h₂⟩

theorem bind_error {x : Operation α} {f : α → Operation β} {stop : Stop SessionError}
    (hx : s.Yields K r i t x (.error stop) t') : s.Yields K r i t (x >>= f) (.error stop) t' := by
  intro E w hE h
  obtain ⟨w₁, hrun, hrest, h₁⟩ := hx E w hE h
  exact ⟨w₁, bind_of_error hrun, hrest, h₁⟩

/-- Operations one after the other, of which only the first one moves the machine. -/
theorem bind {x : Operation α} {f : α → Operation β} {out : Except (Stop SessionError) α}
    {g : α → Except (Stop SessionError) β} (hx : s.Yields K r i t x out t')
    (hf : ∀ a, s.Yields K r i t' (f a) (g a) t') : s.Yields K r i t (x >>= f) (out >>= g) t' := by
  cases out with
  | ok a => exact bind_ok hx (hf a)
  | error stop => exact bind_error hx

theorem located {x : Operation α} {out : Except (Stop SessionError) α} (site : String)
    (hx : s.Yields K r i t x out t') :
    s.Yields K r i t (x.located site) (out.mapError (Stop.map (.located site))) t' := by
  intro E w hE h
  obtain ⟨w₁, hrun, hrest, h₁⟩ := hx E w hE h
  exact ⟨w₁, by rw [located_eq, hrun], hrest, h₁⟩

end Yields

/-! ## Calls -/

theorem object_yields : s.Yields K r i t s.object (.ok r) t := by
  intro E w _ h
  refine ⟨w, ?_, .refl w, h⟩
  rw [object, world_bind, h.handle]
  rfl

/-- A call of a method answers with what the conversion makes of the answer of the machine. -/
theorem call_yields {m : ScannerMethod} {f : ContextId → Conversion α} {a : Except (Stop SessionError) α}
    (hpresent : (t.perform [] m).1.isAbsent = false) (ht : (t.perform [] m).2.Regular)
    (hconvert : ∀ E w, s.Scans K r i (t.perform [] m).2 w → ∃ w₁,
      f (w.scanner s).context (t.perform [] m).1 E w = (a, w₁) ∧ w.Unmoved w₁ ∧
        w₁.At i (t.perform [] m).2) :
    s.Yields K r i t (s.call m.name f)
      ((a.mapError (Stop.map (.located m.name))).mapError (Stop.map (.located "scanner")))
      (t.perform [] m).2 := by
  rw [call]
  apply Yields.located
  refine Yields.bind_ok object_yields ?_
  intro E w hE h
  obtain ⟨w₁, hrun, hrest, hat⟩ :=
    ContextId.callMethod_run (w.scanner s).context [] m hE h.object h.regular h.machine
  have h₁ := h.move hrest hat ht
  obtain ⟨w₂, hout, hrest', hat'⟩ := hconvert E w₁ h₁
  refine ⟨w₂, ?_, hrest.trans hrest', h₁.move hrest' hat' ht⟩
  rw [world_bind, ContextId.call, located_eq, bind_of_ok hrun, Conversion.required, hpresent]
  rw [hrest.scanner] at hout
  simp only [Bool.false_eq_true, if_false]
  rw [hout]

/-- Reads a position. -/
theorem offset_yields {m : ScannerMethod} {p : Position} (hperform : t.perform [] m = (p, t))
    (hp : Value.IsNumber p) :
    s.Yields K r i t (s.call m.name (fun _ => Conversion.toInt32) >>= toOffset) (Tokenizer.hostOffset m.name p)
      t := by
  have hcall {out : Except (Stop SessionError) Int32} (hout : ∀ E w, Conversion.toInt32 p E w = (out, w)) :
      s.Yields K r i t (s.call m.name fun _ => Conversion.toInt32)
        ((out.mapError (Stop.map (.located m.name))).mapError (Stop.map (.located "scanner"))) t := by
    intro E w hE h
    have hyields := call_yields (s := s) (K := K) (r := r) (i := i) (t := t) (m := m) (a := out)
      (f := fun _ => Conversion.toInt32)
    rw [hperform] at hyields
    refine hyields ?_ h.regular (fun E w h => ⟨w, hout E w, .refl w, h.machine⟩) E w hE h
    cases hp <;> rfl
  rw [Tokenizer.hostOffset]
  cases hint : Value.exactInt32? p with
  | none =>
    have hfloat : ∀ E w, Conversion.toInt32 p E w =
        (.error (.failed (.shapeMismatch "32-bit integer" "float")), w) := by
      intro E w
      rw [Conversion.toInt32, Conversion.ofOption, hint]
      cases hp with
      | int n => cases hint
      | float x => rfl
    exact (hcall hfloat).bind_error
  | some n =>
    have hok : ∀ E w, Conversion.toInt32 p E w = (.ok n, w) := by
      intro E w
      rw [Conversion.toInt32, Conversion.ofOption, hint]
      rfl
    refine Yields.bind_ok (hcall hok) ?_
    intro E w _ h
    have hoffset : toOffset n E w =
        (if n < 0 then .error (.failed (.shapeMismatch "text offset" (toString n.toInt))) else .ok n.toUInt32,
          w) := by
      rw [toOffset]
      split <;> rfl
    exact ⟨w, hoffset, .refl w, h⟩

/-! ## Operations -/

theorem tokenStart_yields (ht : t.Regular) :
    s.Yields K r i t s.tokenStart (Tokenizer.hostOffset "getTokenStart" t.start) t :=
  offset_yields (m := .getTokenStart) rfl ht.start

theorem tokenEnd_yields (ht : t.Regular) :
    s.Yields K r i t s.tokenEnd (Tokenizer.hostOffset "getTokenEnd" t.position) t :=
  offset_yields (m := .getTokenEnd) rfl ht.position

theorem tokenText_yields (ht : t.Regular) : s.Yields K r i t s.tokenText t.hostText t := by
  have hcall (out : Except (Stop SessionError) String)
      (hout : ∀ c E w, ∃ w₁, Conversion.toText c (.text t.tokenText) E w = (out, w₁) ∧ w.Unmoved w₁ ∧
        w₁.heap = w.heap) :
      s.Yields K r i t s.tokenText
        ((out.mapError (Stop.map (.located "getTokenText"))).mapError (Stop.map (.located "scanner"))) t := by
    refine call_yields (m := .getTokenText) rfl ht fun E w h => ?_
    obtain ⟨w₁, hrun, hrest, hheap⟩ := hout (w.scanner s).context E w
    refine ⟨w₁, hrun, hrest, ?_⟩
    rw [World.At, hheap]
    exact h.machine
  rw [Tokenizer.hostText]
  cases htext : t.tokenText.decode with
  | ok text =>
    refine hcall (.ok text) fun c E w => ⟨w, ?_, .refl w, rfl⟩
    rw [Conversion.toText, htext]
    rfl
  | error offset =>
    refine hcall (.error (.failed (.brokenText offset))) fun c E w =>
      ⟨w.settled c, ?_, .settled c w, rfl⟩
    rw [Conversion.toText, htext]
    rfl

theorem scanNext_yields (ht : t.Regular) :
    s.Yields K r i t s.scanNext (Tokenizer.hostKind K t.scan.1) t.next := by
  have hcall (out : Except (Stop SessionError) SyntaxKind)
      (hout : ∀ E w, Conversion.toCode "SyntaxKind" K.kind? (.int t.scan.1) E w = (out, w)) :
      s.Yields K r i t s.scanNext
        ((out.mapError (Stop.map (.located "scan"))).mapError (Stop.map (.located "scanner"))) t.next := by
    refine call_yields (m := .scan) rfl ht.next fun E w h => ⟨w, ?_, .refl w, h.machine⟩
    rw [← hout E w, ← h.kinds]
    rfl
  rw [Tokenizer.hostKind]
  cases hkind : K.kind? t.scan.1 with
  | some kind =>
    refine hcall (.ok kind) fun E w => ?_
    rw [Conversion.toCode, bind_of_ok (a := t.scan.1) rfl, hkind]
    rfl
  | none =>
    refine hcall (.error (.failed (.unknownCode "SyntaxKind" t.scan.1.toInt))) fun E w => ?_
    rw [Conversion.toCode, bind_of_ok (a := t.scan.1) rfl, hkind]
    rfl

/-- A reset puts the machine at the integer with the bits of the offset. -/
theorem reset_yields (p : UInt32) : s.Yields K r i t (s.reset p) (.ok ()) (t.reset (.int p.toInt32)) := by
  rw [reset]
  refine Yields.bind_ok (object_yields.located "scanner") ?_
  intro E w hE h
  obtain ⟨w₁, hrun, hrest, hat⟩ := ContextId.callMethod_run (w.scanner s).context [.int p.toInt32]
    .resetTokenState hE h.object h.regular h.machine
  refine ⟨w₁, ?_, hrest, h.move hrest hat (.reset t p.toInt32)⟩
  have hcall : (w.scanner s).context.callMethod r "resetTokenState" [.int p.toInt32] E w = (.ok .undefined, w₁) :=
    hrun
  have hinvoke : ((w.scanner s).context.invoke r "resetTokenState" [.int p.toInt32]).located "scanner" E w =
      (.ok .undefined, w₁) := by
    rw [located_eq, ContextId.invoke, located_eq, hcall]
    rfl
  exact bind_of_ok hinvoke

theorem nextToken_yields (ht : t.Regular) : s.Yields K r i t s.nextToken (t.hostToken K) t.next := by
  refine (scanNext_yields ht).bind fun kind => ?_
  refine (tokenStart_yields ht.next).bind fun start => ?_
  refine (tokenEnd_yields ht.next).bind fun stop => ?_
  exact (tokenText_yields ht.next).bind fun text => Yields.pure _

theorem tokenAt_yields (p : UInt32) :
    s.Yields K r i t (s.tokenAt p) ((t.reset (.int p.toInt32)).hostToken K) (t.reset (.int p.toInt32)).next :=
  (reset_yields p).bind_ok (nextToken_yields (.reset t p.toInt32))

end ScannerId

end ProxySession
