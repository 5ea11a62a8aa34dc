import ProxySession.Proofs.Rescanning

/-!
# Offsets across the border

An offset leaves as the signed 32-bit integer with its bits, and one that comes back must not be negative. So the
offsets below `2 ^ 31` survive both directions, and the others do not come back.
-/

namespace ProxySession

open Effect

variable {c : ContextId} {s : ScannerId} {K : KindTable} {r : ObjectRef} {i : Nat} {t : Tokenizer}
  {E : Engine} {w w₁ w₂ : World} {p q : UInt32} {n : ℤ}

/-! ## Offsets and positions -/

theorem toInt_toInt32_of_lt (h : p.toNat < 2 ^ 31) : p.toInt32.toInt = p.toNat := by
  have hint := BitVec.toInt_eq_toNat_cond p.toBitVec
  rw [if_pos (by change 2 * p.toNat < 2 ^ 32; omega)] at hint
  exact hint

theorem toInt_toInt32_of_le (h : 2 ^ 31 ≤ p.toNat) : p.toInt32.toInt = p.toNat - 2 ^ 32 := by
  have hint := BitVec.toInt_eq_toNat_cond p.toBitVec
  rw [if_neg (by change ¬2 * p.toNat < 2 ^ 32; omega)] at hint
  exact hint

namespace Tokenizer

variable {method : String} {x : Position}

theorem hostOffset_int (method : String) (k : Int32) : hostOffset method (.int k) =
    if k < 0 then .error (.failed (.shapeMismatch "text offset" (toString k.toInt))) else .ok k.toUInt32 := rfl

/-- An offset below `2 ^ 31` comes back. -/
theorem hostOffset_of_lt (method : String) (h : p.toNat < 2 ^ 31) :
    hostOffset method (.int p.toInt32) = .ok p := by
  have hnonneg : ¬p.toInt32 < 0 := by
    rw [Int32.lt_iff_toInt_lt, toInt_toInt32_of_lt h, Int32.toInt_zero]
    omega
  rw [hostOffset_int, if_neg hnonneg, UInt32.toUInt32_toInt32]

/-- A larger offset comes back as a negative number, which is no offset. -/
theorem hostOffset_of_le (method : String) (h : 2 ^ 31 ≤ p.toNat) :
    hostOffset method (.int p.toInt32) =
      .error (.failed (.shapeMismatch "text offset" (toString ((p.toNat : ℤ) - 2 ^ 32)))) := by
  have hlt := p.toNat_lt
  have hneg : p.toInt32 < 0 := by
    rw [Int32.lt_iff_toInt_lt, toInt_toInt32_of_le h, Int32.toInt_zero]
    omega
  rw [hostOffset_int, if_pos hneg, toInt_toInt32_of_le h]

/-- What is read as an offset is the position. -/
theorem hostOffset_ok (hx : x.Is n) (h : hostOffset method x = .ok q) : n = q.toNat := by
  obtain rfl := ScannerId.position_of_offset hx h
  rcases Nat.lt_or_ge q.toNat (2 ^ 31) with hlt | hle
  · exact (hx.unique (.int _)).trans (toInt_toInt32_of_lt hlt)
  · rw [hostOffset_of_le method hle] at h
    cases h

theorem is_of_lt (h : p.toNat < 2 ^ 31) : Position.Is (.int p.toInt32) p.toNat := by
  have hp := Position.Is.int p.toInt32
  rwa [toInt_toInt32_of_lt h] at hp

/-- Both ends of the current token are at a place or past it. -/
def Beyond (p : Nat) (t : Tokenizer) : Prop :=
  ∃ m n : ℤ, t.start.Is m ∧ t.position.Is n ∧ p ≤ m ∧ p ≤ n

theorem Beyond.next {p : Nat} (h : t.Beyond p) (hlen : t.text.length ≤ 2 ^ 53) : t.next.Beyond p := by
  obtain ⟨m, n, _, hn, _, hle⟩ := h
  obtain ⟨-, hstart, hposition⟩ := scan_of_nonneg hn (by omega) hlen
  have hfrom : n.toNat ≤ t.afterBlanks n.toNat := Nat.le_add_right _ _
  exact ⟨_, _, hstart, hposition, by omega, by omega⟩

/-- There is nothing between a position and itself. -/
theorem tokenText_of_lt (h : p.toNat < 2 ^ 31) (t : Tokenizer) :
    (t.reset (.int p.toInt32)).tokenText = ⟨[]⟩ := by
  let u := t.reset (.int p.toInt32)
  have hcut : u.cut (.int p.toInt32) = p.toNat := by
    rw [cut, index, toInt_toInt32_of_lt h, if_neg (by omega)]
    rfl
  change u.text.slice (u.cut (.int p.toInt32)) (u.cut (.int p.toInt32)) = _
  rw [hcut, Units.slice, Nat.sub_self, List.take_zero]

/-- At the end of the text and past it, a scan stays where it is. -/
theorem scan_past_end (h : p.toNat < 2 ^ 31) (hend : t.text.length ≤ p.toNat) :
    (t.reset (.int p.toInt32)).scan = (endOfFile, t.reset (.int p.toInt32)) := by
  let u := t.reset (.int p.toInt32)
  have hplace : u.position.place? = some p.toNat := (is_of_lt h).place_of_nonneg (by omega)
  have hnil : u.unitsFrom p.toNat = [] := List.drop_eq_nil_of_le hend
  have hafter : u.afterBlanks p.toNat = p.toNat := by
    rw [afterBlanks, hnil]
    rfl
  have htoken : u.tokenFrom p.toNat = (endOfFile, 0) := tokenFrom_of_le hend
  change u.scan = (endOfFile, u)
  rw [scan_of_place hplace, scanAt_eq, hafter, htoken, hnil]
  rfl

/-- The token at the end of the text or past it is the end of the file. -/
theorem hostToken_past_end (hK : K.NamesTokens) (h : p.toNat < 2 ^ 31) (hend : t.text.length ≤ p.toNat) :
    ∃ name, (t.reset (.int p.toInt32)).hostToken K =
      .ok { kind := ⟨endOfFile, name⟩, start := p, stop := p, text := "" } := by
  let u := t.reset (.int p.toInt32)
  have hscan : u.scan = (endOfFile, u) := scan_past_end h hend
  have hnext : u.next = u := congrArg Prod.snd hscan
  have htext : u.hostText = .ok "" := by
    have hempty : u.tokenText = ⟨[]⟩ := tokenText_of_lt h t
    rw [hostText, hempty]
    rfl
  have hstart : hostOffset "getTokenStart" u.start = .ok p := hostOffset_of_lt _ h
  have hstop : hostOffset "getTokenEnd" u.position = .ok p := hostOffset_of_lt _ h
  obtain ⟨name, hname⟩ := hK.hostKind u
  refine ⟨name, ?_⟩
  change u.hostToken K = _
  rw [hostToken, hname, hnext, hstart, hstop, htext, hscan]
  rfl

/-- A large offset is before the text for the scanner. The token there does not come back. -/
theorem hostToken_wrapped (hK : K.NamesTokens) (h : 2 ^ 31 ≤ p.toNat) (hlen : t.text.length < 2 ^ 53) :
    (t.reset (.int p.toInt32)).hostToken K =
      .error (.failed (.shapeMismatch "text offset" (toString ((p.toNat : ℤ) - 2 ^ 32)))) := by
  have hlt := p.toNat_lt
  have his := Position.Is.int p.toInt32
  rw [toInt_toInt32_of_le h] at his
  obtain ⟨hstart, -⟩ := scan_of_neg (t := t.reset (.int p.toInt32)) his (by omega) hlen.le
  obtain ⟨name, hname⟩ := hK.hostKind (t.reset (.int p.toInt32))
  have hstart' : (t.reset (.int p.toInt32)).next.start = .int p.toInt32 := hstart
  rw [hostToken, hname, hstart', hostOffset_of_le _ h]
  rfl

end Tokenizer

/-- Whether a call puts the scanner at a position of the caller's. -/
def ScannerCall.isJump : ScannerCall → Bool
  | reset _ | tokenAt _ => true
  | _ => false

namespace ScannerId

theorem Yields.after_beyond {α : Type} {x : Operation α} {out : Except (Stop SessionError) α} {p : Nat}
    {t' : Tokenizer} (hx : s.Yields K r i t x out t') (htext : t'.text = t.text) (hbeyond : t'.Beyond p)
    (hE : E.Ready) (h : s.Scans K r i t w) :
    ∃ t', t'.text = t.text ∧ t'.Beyond p ∧ s.Scans K r i t' (x E w).2 := by
  obtain ⟨w₁, hrun, _, h₁⟩ := hx E w hE h
  rw [hrun]
  exact ⟨t', htext, hbeyond, h₁⟩

/-- Calls that do not jump leave the scanner beyond a place. -/
theorem Scans.after_beyond {p : Nat} (hE : E.Ready) (hlen : t.text.length ≤ 2 ^ 53) (h : s.Scans K r i t w)
    (hbeyond : t.Beyond p) {a : ScannerCall} (ha : a.isJump = false) :
    ∃ t', t'.text = t.text ∧ t'.Beyond p ∧ s.Scans K r i t' (a.after s E w) := by
  cases a with
  | reset p => cases ha
  | tokenAt p => cases ha
  | scanNext =>
    exact (scanNext_yields h.regular).after_beyond (Tokenizer.scan_text t) (hbeyond.next hlen) hE h
  | tokenStart => exact (tokenStart_yields h.regular).after_beyond rfl hbeyond hE h
  | tokenEnd => exact (tokenEnd_yields h.regular).after_beyond rfl hbeyond hE h
  | tokenText => exact (tokenText_yields h.regular).after_beyond rfl hbeyond hE h

theorem History.beyond {p : Nat} {calls : List ScannerCall} (hw : s.History w calls w₁)
    (hcalls : ∀ a ∈ calls, a.isJump = false) (hlen : t.text.length ≤ 2 ^ 53) (h : s.Scans K r i t w)
    (hbeyond : t.Beyond p) : ∃ t', t'.text = t.text ∧ t'.Beyond p ∧ s.Scans K r i t' w₁ := by
  induction hw with
  | nil => exact ⟨t, rfl, hbeyond, h⟩
  | call _ hE a ih =>
    obtain ⟨t₁, htext, hbeyond₁, h₁⟩ := ih fun a ha => hcalls a (by simp [ha])
    obtain ⟨t₂, htext', hbeyond₂, h₂⟩ :=
      h₁.after_beyond hE (by rw [htext]; exact hlen) hbeyond₁ (hcalls a (by simp))
    exact ⟨t₂, htext'.trans htext, hbeyond₂, h₂⟩

/-- What the ends of the current token are read as after a reset. -/
theorem Scans.ends_of_reset (hE : E.Ready) (h : s.Scans K r i (t.reset (.int p.toInt32)) w) :
    (s.tokenStart E w).1 = Tokenizer.hostOffset "getTokenStart" (.int p.toInt32) ∧
      (s.tokenEnd E w).1 = Tokenizer.hostOffset "getTokenEnd" (.int p.toInt32) := by
  obtain ⟨_, hstart, _⟩ := tokenStart_yields h.regular E w hE h
  obtain ⟨_, hend, _⟩ := tokenEnd_yields h.regular E w hE h
  rw [hstart, hend]
  exact ⟨rfl, rfl⟩

/-! ## Both directions -/

/-- After a reset to an offset, before and after which there were two worlds, the offset comes back. -/
structure ReturnsOffset (s : ScannerId) (text : String) (p : UInt32) (E : Engine) (w w' : World) : Prop where
  start : ∀ E' : Engine, E'.Ready → (s.tokenStart E' w').1 = .ok p
  stop : ∀ E' : Engine, E'.Ready → (s.tokenEnd E' w').1 = .ok p
  /-- Scans that follow never begin a token before the offset. -/
  onwards : (Units.ofString text).length < 2 ^ 53 →
    ∀ later w₁, s.History w' later w₁ → (∀ a ∈ later, a.isJump = false) →
      ∀ (E' : Engine) (q : UInt32), E'.Ready → (s.tokenStart E' w₁).1 = .ok q → p ≤ q
  /-- If the offset is not in the text, the token there is the end of the file with the offset as both ends. -/
  past : (Units.ofString text).length ≤ p.toNat → ∃ name, (s.tokenAt p E w).1 =
    .ok { kind := ⟨Tokenizer.endOfFile, name⟩, start := p, stop := p, text := "" }

/-- The error for an offset that comes back as a negative number. -/
def refusal (p : UInt32) : Stop SessionError :=
  .failed (.shapeMismatch "text offset" (toString ((p.toNat : ℤ) - 2 ^ 32)))

/-- After a reset to an offset, before and after which there were two worlds, the offset is refused. -/
structure RefusesOffset (s : ScannerId) (text : String) (p : UInt32) (E : Engine) (w w' : World) : Prop where
  start : ∀ E' : Engine, E'.Ready → (s.tokenStart E' w').1 = .error (refusal p)
  stop : ∀ E' : Engine, E'.Ready → (s.tokenEnd E' w').1 = .error (refusal p)
  tokenAt : (Units.ofString text).length < 2 ^ 53 → (s.tokenAt p E w).1 = .error (refusal p)

variable {text : String} {w' : World}

/-- What a reset to a small offset does. -/
theorem Scans.returnsOffset (hK : K.NamesTokens) (hE : E.Ready) (htext : t.text = Units.ofString text)
    (hlt : p.toNat < 2 ^ 31) (h : s.Scans K r i t w) (h' : s.Scans K r i (t.reset (.int p.toInt32)) w') :
    s.ReturnsOffset text p E w w' where
  start E' hE' := by
    rw [(h'.ends_of_reset hE').1]
    exact Tokenizer.hostOffset_of_lt "getTokenStart" hlt
  stop E' hE' := by
    rw [(h'.ends_of_reset hE').2]
    exact Tokenizer.hostOffset_of_lt "getTokenEnd" hlt
  onwards hlen later w₁ hlater hjump E' q hE' hq := by
    have hbeyond : (t.reset (.int p.toInt32)).Beyond p.toNat :=
      ⟨_, _, Tokenizer.is_of_lt hlt, Tokenizer.is_of_lt hlt, le_rfl, le_rfl⟩
    rw [← htext] at hlen
    obtain ⟨t₁, _, ⟨m, n, hm, _, hpm, _⟩, h₁⟩ :=
      hlater.beyond (t := t.reset (.int p.toInt32)) hjump hlen.le h' hbeyond
    obtain ⟨_, hstart, _⟩ := ScannerId.tokenStart_yields h₁.regular E' w₁ hE' h₁
    rw [hstart] at hq
    have hmq := Tokenizer.hostOffset_ok hm hq
    rw [UInt32.le_iff_toNat_le]
    omega
  past hend := by
    obtain ⟨_, hat, _⟩ := ScannerId.tokenAt_yields p E w hE h
    rw [hat]
    exact Tokenizer.hostToken_past_end hK hlt (by rw [htext]; exact hend)

/-- What a reset to a large offset does. -/
theorem Scans.refusesOffset (hK : K.NamesTokens) (hE : E.Ready) (htext : t.text = Units.ofString text)
    (hle : 2 ^ 31 ≤ p.toNat) (h : s.Scans K r i t w) (h' : s.Scans K r i (t.reset (.int p.toInt32)) w') :
    s.RefusesOffset text p E w w' where
  start E' hE' := by
    rw [(h'.ends_of_reset hE').1]
    exact Tokenizer.hostOffset_of_le "getTokenStart" hle
  stop E' hE' := by
    rw [(h'.ends_of_reset hE').2]
    exact Tokenizer.hostOffset_of_le "getTokenEnd" hle
  tokenAt hlen := by
    obtain ⟨_, hat, _⟩ := ScannerId.tokenAt_yields p E w hE h
    rw [hat]
    exact Tokenizer.hostToken_wrapped hK hle (by rw [htext]; exact hlen)

end ScannerId

namespace Session

/-- An offset below `2 ^ 31` survives the border, after any history: a reset puts both ends of the current token
there, and whatever token is found later does not begin before it. A larger offset is accepted, but it comes back
as a negative number: the ends of the current token and the token there are refused. -/
theorem offsets_cross_border (hc : c.Scanning K w) (hK : K.NamesTokens) (hE : E.Ready) (text : String) :
    ∃ s w₀, c.scanner text E w = (.ok s, w₀) ∧ ∀ calls w₁, s.History w₀ calls w₁ →
      ∀ (p : UInt32) (E₁ : Engine), E₁.Ready → ∃ w₂, s.reset p E₁ w₁ = (.ok (), w₂) ∧
        (p.toNat < 2 ^ 31 → s.ReturnsOffset text p E₁ w₁ w₂) ∧
        (2 ^ 31 ≤ p.toNat → s.RefusesOffset text p E₁ w₁ w₂) := by
  obtain ⟨s, r, i, w₀, hopen, hscans, _⟩ := ContextId.scanner_run hE hc text
  refine ⟨s, w₀, hopen, fun calls w₁ hw p E₁ hE₁ => ?_⟩
  obtain ⟨t, htext, h, _⟩ := hw.scans hscans
  obtain ⟨w₂, hreset, _, h₂⟩ := ScannerId.reset_yields p E₁ w₁ hE₁ h
  exact ⟨w₂, hreset, fun hlt => h.returnsOffset hK hE₁ htext hlt h₂,
    fun hle => h.refusesOffset hK hE₁ htext hle h₂⟩

/-- The offset 7 past a text of five units. -/
theorem offsets_cross_border_sample :
    (⟨0⟩ : ContextId).Scanning (scanWorld.context ⟨0⟩).kinds scanWorld ∧
    (scanWorld.context ⟨0⟩).kinds.NamesTokens ∧ shallowEngine.Ready ∧
    ∃ s w₀ w₁, (⟨0⟩ : ContextId).scanner "let x" shallowEngine scanWorld = (.ok s, w₀) ∧
      s.reset 7 shallowEngine w₀ = (.ok (), w₁) ∧ (s.tokenStart shallowEngine w₁).1 = .ok 7 ∧
        ∃ name, (s.tokenAt 7 shallowEngine w₀).1 =
          .ok { kind := ⟨Tokenizer.endOfFile, name⟩, start := 7, stop := 7, text := "" } := by
  obtain ⟨s, w₀, hopen, hhistory⟩ := offsets_cross_border scanWorld_scanning scanWorld_names
    shallowEngine_ready "let x"
  obtain ⟨w₁, hreset, hreturns, _⟩ := hhistory [] w₀ .nil 7 shallowEngine shallowEngine_ready
  have h := hreturns (by decide)
  exact ⟨scanWorld_scanning, scanWorld_names, shallowEngine_ready, s, w₀, w₁, hopen, hreset,
    h.start _ shallowEngine_ready, h.past (by decide +kernel)⟩

/-- The largest offset does not come back. -/
theorem largest_offset_lost :
    ¬∀ (text : String) (p : UInt32) (s : ScannerId) (w₀ w₁ : World),
      (⟨0⟩ : ContextId).scanner text shallowEngine scanWorld = (.ok s, w₀) →
        s.reset p shallowEngine w₀ = (.ok (), w₁) → (s.tokenStart shallowEngine w₁).1 = .ok p := by
  intro h
  obtain ⟨s, r, i, w₀, hopen, hscans, _⟩ := ContextId.scanner_run shallowEngine_ready scanWorld_scanning ""
  obtain ⟨w₁, hreset, _, h₁⟩ := ScannerId.reset_yields 4294967295 shallowEngine w₀ shallowEngine_ready hscans
  have hstart := (h₁.ends_of_reset shallowEngine_ready).1
  rw [Tokenizer.hostOffset_of_le _ (by decide), h _ _ _ _ _ hopen hreset] at hstart
  cases hstart

end Session

end ProxySession
