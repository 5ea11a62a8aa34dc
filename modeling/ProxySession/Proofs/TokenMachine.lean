import Mathlib.Logic.Function.Iterate
import ProxySession.Proofs.Positions

/-!
# One scan after the other

A scan answers with a code by the position and the text alone. From a position in the text it moves on by at
least one unit, never past the end, so that scans come to the end of the text.
-/

namespace ProxySession

namespace Tokenizer

/-- The codes that scans answer with. -/
def codes : List Int32 :=
  [endOfFile, numericLiteral, stringLiteral, identifier, 121, 87, 150, 154, 64, 27, 59, 28, 0]

variable {t : Tokenizer} {n : ℤ}

theorem keywordCode_mem (word : Units) : keywordCode word ∈ codes := by
  unfold keywordCode
  split_ifs <;> decide

theorem punctuationCode_mem (u : UInt16) : punctuationCode u ∈ codes := by
  unfold punctuationCode
  split_ifs <;> decide

theorem tokenAtHead_code_mem (us : List UInt16) : (tokenAtHead us).1 ∈ codes := by
  cases us with
  | nil => decide
  | cons u rest =>
    rw [tokenAtHead]
    split_ifs
    · exact keywordCode_mem _
    · exact (by decide : numericLiteral ∈ codes)
    · exact (by decide : stringLiteral ∈ codes)
    · exact punctuationCode_mem u

theorem scan_code_mem (t : Tokenizer) : t.scan.1 ∈ codes := by
  rw [scan]
  split
  · exact tokenAtHead_code_mem _
  · rw [scanBeside]
    split
    · exact keywordCode_mem _
    · exact (by decide : endOfFile ∈ codes)
    · exact keywordCode_mem _

@[simp] theorem scan_text (t : Tokenizer) : t.scan.2.text = t.text := by
  rw [scan]
  split
  · rfl
  · rw [scanBeside]
    split <;> rfl

theorem wordEndFrom_start (t : Tokenizer) (start : Position) (fuel : Nat) (p : Position) :
    { t with start }.wordEndFrom fuel p = t.wordEndFrom fuel p := by
  induction fuel generalizing p with
  | zero => rfl
  | succ fuel ih =>
    rw [wordEndFrom, wordEndFrom]
    simp only [ih]

theorem scanBeside_start (t : Tokenizer) (start : Position) :
    { t with start }.scanBeside = t.scanBeside := by
  have hstop : { t with start }.wordEnd = t.wordEnd := by
    rw [wordEnd, wordEnd]
    simp only [wordEndFrom_start]
    rfl
  rw [scanBeside, hstop]
  rfl

/-- Where the last token began makes no difference to the next one. -/
theorem scan_start (t : Tokenizer) (start : Position) : { t with start }.scan = t.scan := by
  have hplace : { t with start }.position.place? = t.position.place? := rfl
  rw [scan, scan, hplace]
  cases t.position.place? with
  | none => exact scanBeside_start t start
  | some place => rfl

/-! ## Lengths -/

theorem runLength_le (p : UInt16 → Bool) (us : List UInt16) : runLength p us ≤ us.length :=
  (us.takeWhile_prefix p).length_le

theorem length_unitsFrom (t : Tokenizer) (i : Nat) : (t.unitsFrom i).length = t.text.length - i :=
  List.length_drop

/-- A token has a unit, unless there is none left. -/
theorem tokenAtHead_length_pos {us : List UInt16} (h : us ≠ []) : 0 < (tokenAtHead us).2 := by
  cases us with
  | nil => exact absurd rfl h
  | cons u rest =>
    rw [tokenAtHead]
    split_ifs <;> simp only <;> omega

theorem tokenAtHead_length_le (us : List UInt16) : (tokenAtHead us).2 ≤ us.length := by
  cases us with
  | nil => exact Nat.le_refl 0
  | cons u rest =>
    have hword := runLength_le isWordPart rest
    have hnumber := runLength_le isNumberPart rest
    rw [tokenAtHead, List.length_cons]
    split_ifs <;> simp only <;> omega

/-! ## A scan from a position in the text or past it -/

/-- The first unit from a place on that is no blank. -/
def afterBlanks (t : Tokenizer) (place : Nat) : Nat := place + runLength isBlank (t.unitsFrom place)

theorem afterBlanks_le (t : Tokenizer) (place : Nat) :
    t.afterBlanks place ≤ max place t.text.length := by
  have hle := runLength_le isBlank (t.unitsFrom place)
  rw [length_unitsFrom] at hle
  rw [afterBlanks]
  omega

/-- The token at a place. -/
def tokenFrom (t : Tokenizer) (place : Nat) : Int32 × Nat := tokenAtHead (t.unitsFrom place)

theorem tokenFrom_of_le {place : Nat} (h : t.text.length ≤ place) : t.tokenFrom place = (endOfFile, 0) := by
  have hnil : t.unitsFrom place = [] := List.drop_eq_nil_of_le h
  rw [tokenFrom, hnil, tokenAtHead]

theorem tokenFrom_length_pos {place : Nat} (h : place < t.text.length) : 0 < (t.tokenFrom place).2 := by
  apply tokenAtHead_length_pos
  rw [← List.length_pos_iff, length_unitsFrom]
  omega

theorem tokenFrom_length_le (t : Tokenizer) (place : Nat) :
    (t.tokenFrom place).2 ≤ t.text.length - place := by
  rw [← length_unitsFrom]
  exact tokenAtHead_length_le _

theorem scan_of_place {place : Nat} (h : t.position.place? = some place) : t.scan = t.scanAt place := by
  rw [scan, h]

theorem scanAt_eq (t : Tokenizer) (place : Nat) :
    t.scanAt place =
      let token := t.tokenFrom (t.afterBlanks place)
      let skipped := runLength isBlank (t.unitsFrom place)
      let stop := t.position.advance (skipped + token.2)
      (token.1,
        { t with
          start := t.position.advance skipped
          position := if token.1 = stringLiteral then stop.usual else stop }) := rfl

/-- A scan skips blanks and takes the token behind them. -/
theorem scan_of_nonneg (hp : t.position.Is n) (hn : 0 ≤ n) (hlen : t.text.length ≤ 2 ^ 53) :
    t.scan.1 = (t.tokenFrom (t.afterBlanks n.toNat)).1 ∧
    t.scan.2.start.Is (t.afterBlanks n.toNat) ∧
    t.scan.2.position.Is (t.afterBlanks n.toNat + (t.tokenFrom (t.afterBlanks n.toNat)).2) := by
  have hle := t.afterBlanks_le n.toNat
  have hlength := t.tokenFrom_length_le (t.afterBlanks n.toNat)
  have h53 := hp.le
  set i := t.afterBlanks n.toNat with hi
  have hstart : (t.position.advance (runLength isBlank (t.unitsFrom n.toNat))).Is i := by
    have hsum : (i : ℤ) = n + (runLength isBlank (t.unitsFrom n.toNat) : ℕ) := by
      rw [hi, afterBlanks]
      omega
    rw [hsum]
    exact hp.advance (by omega)
  have hstop : (t.position.advance
      (runLength isBlank (t.unitsFrom n.toNat) + (t.tokenFrom i).2)).Is (i + (t.tokenFrom i).2) := by
    have hsum : (i + (t.tokenFrom i).2 : ℤ) =
        n + (runLength isBlank (t.unitsFrom n.toNat) + (t.tokenFrom i).2 : ℕ) := by
      rw [hi, afterBlanks]
      push_cast
      omega
    rw [hsum]
    refine hp.advance ?_
    rw [← hsum]
    omega
  rw [scan_of_place (hp.place_of_nonneg hn), scanAt_eq, ← hi]
  refine ⟨rfl, hstart, ?_⟩
  simp only
  split
  · rw [hstop.usual]
    exact hstop
  · exact hstop

/-! ## A scan from a position before the text -/

/-- A word that begins before the text goes on at the first unit. -/
theorem wordEnd_of_neg (hp : t.position.Is n) (hn : n < 0) (hlen : t.text.length ≤ 2 ^ 53) :
    t.wordEnd.Is (runLength isWordPart t.text.codes) := by
  have hrun : runLength isWordPart t.text.codes ≤ t.text.length := runLength_le isWordPart t.text.codes
  have hnext : (t.position.advance 1).Is (n + 1) := hp.advance (by omega)
  have hnumber : (t.position.advance 1).number.toInt? = some (n + 1) := by
    rw [hnext.number_of_neg (by omega)]
    have hlow := hp.ge
    obtain ⟨m, hm⟩ : ∃ m : Nat, n + 1 = -(m : ℤ) := ⟨(-(n + 1)).toNat, by omega⟩
    rw [hm]
    exact Binary64.toInt_ofInt_neg (by omega)
  have hzero : (n + 1).toNat = 0 := by omega
  rw [wordEnd]
  simp only [hnumber, hzero]
  have hunits : t.unitsFrom 0 = t.text.codes := rfl
  rw [hunits, Nat.zero_add]
  have hsum : ((runLength isWordPart t.text.codes : ℕ) : ℤ) =
      n + 1 + (((runLength isWordPart t.text.codes : ℕ) : ℤ) - (n + 1)).toNat := by omega
  have hstop := hnext.advance (k := (((runLength isWordPart t.text.codes : ℕ) : ℤ) - (n + 1)).toNat)
    (by omega)
  rw [← hsum] at hstop
  exact hstop

/-- A scan from a position before the text takes a word that ends in the text. -/
theorem scan_of_neg (hp : t.position.Is n) (hn : n < 0) (hlen : t.text.length ≤ 2 ^ 53) :
    t.scan.2.start = t.position ∧
      t.scan.2.position.Is (runLength isWordPart t.text.codes) := by
  have hcompare : t.position.number.compareInt? t.text.length = some .lt := by
    rw [hp.number_of_neg (by omega)]
    have hlow := hp.ge
    obtain ⟨m, hm⟩ : ∃ m : Nat, n = -(m : ℤ) := ⟨(-n).toNat, by omega⟩
    rw [hm]
    exact Binary64.compareInt_of_neg (by omega) (by omega) _
  have hscan : t.scan = (keywordCode (t.between t.position t.wordEnd),
      { t with start := t.position, position := t.wordEnd }) := by
    rw [scan, hp.place_of_neg hn, scanBeside, hcompare]
  rw [hscan]
  exact ⟨rfl, wordEnd_of_neg hp hn hlen⟩

/-! ## States of a scanner that is given integers -/

/-- The machine after a scan. -/
def next (t : Tokenizer) : Tokenizer := t.scan.2

/-- The machine at a position. -/
def reset (t : Tokenizer) (p : Position) : Tokenizer := { t with position := p, start := p }

/-- The positions are numbers, and the current one is an integer as far as the text is one of the
language: none of these has `2 ^ 53` units. -/
structure Regular (t : Tokenizer) : Prop where
  position : Value.IsNumber t.position
  start : Value.IsNumber t.start
  integer : t.text.length < 2 ^ 53 → ∃ n, t.position.Is n

theorem wordEndFrom_isNumber (t : Tokenizer) (fuel : Nat) {p : Position} (h : Value.IsNumber p) :
    Value.IsNumber (t.wordEndFrom fuel p) := by
  induction fuel generalizing p with
  | zero => exact h
  | succ fuel ih =>
    rw [wordEndFrom]
    split
    · split
      · exact ih (Position.isNumber_advance h 1)
      · exact h
    · exact h

theorem wordEnd_isNumber (h : Value.IsNumber t.position) : Value.IsNumber t.wordEnd := by
  have hnext := Position.isNumber_advance h 1
  rw [wordEnd]
  simp only
  split
  · exact Position.isNumber_advance hnext _
  · exact wordEndFrom_isNumber t _ hnext

namespace Regular

/-- A scan keeps a scanner regular. -/
theorem next (h : t.Regular) : t.next.Regular := by
  change t.scan.2.Regular
  have hnumbers : Value.IsNumber t.scan.2.position ∧ Value.IsNumber t.scan.2.start := by
    rw [Tokenizer.scan]
    split
    · refine ⟨?_, Position.isNumber_advance h.position _⟩
      rw [scanAt]
      simp only
      split
      · exact Position.isNumber_usual (Position.isNumber_advance h.position _)
      · exact Position.isNumber_advance h.position _
    · rw [scanBeside]
      split
      · exact ⟨wordEnd_isNumber h.position, h.position⟩
      · exact ⟨h.position, h.position⟩
      · exact ⟨h.position, h.position⟩
  refine ⟨hnumbers.1, hnumbers.2, fun hlen => ?_⟩
  rw [scan_text] at hlen
  obtain ⟨n, hn⟩ := h.integer hlen
  rcases Int.lt_or_le n 0 with hneg | hnonneg
  · exact ⟨_, (scan_of_neg hn hneg hlen.le).2⟩
  · exact ⟨_, (scan_of_nonneg hn hnonneg hlen.le).2.2⟩

theorem reset (t : Tokenizer) (k : Int32) : (t.reset (.int k)).Regular :=
  ⟨.int k, .int k, fun _ => ⟨_, .int k⟩⟩

end Regular

/-! ## The way to the end -/

/-- From a position in the text or past it, the end of the text is found after at most as many tokens as there
are units left. -/
theorem reaches_end_of_nonneg (hlen : t.text.length ≤ 2 ^ 53) (left : Nat) :
    ∀ {t' : Tokenizer} {n : ℤ}, t'.text = t.text → t'.position.Is n → 0 ≤ n → t.text.length ≤ n.toNat + left →
      ∃ k ≤ left, (Tokenizer.next^[k] t').scan.1 = endOfFile := by
  induction left with
  | zero =>
    intro t' n htext hp hn hleft
    refine ⟨0, Nat.le_refl 0, ?_⟩
    have hscan := (scan_of_nonneg hp hn (by rw [htext]; exact hlen)).1
    have hlate : t'.text.length ≤ t'.afterBlanks n.toNat := by
      rw [htext, afterBlanks]
      omega
    rw [tokenFrom_of_le hlate] at hscan
    exact hscan
  | succ left ih =>
    intro t' n htext hp hn hleft
    obtain ⟨hcode, -, hnext⟩ := scan_of_nonneg hp hn (by rw [htext]; exact hlen)
    by_cases hlate : t'.text.length ≤ t'.afterBlanks n.toNat
    · rw [tokenFrom_of_le hlate] at hcode
      exact ⟨0, Nat.zero_le _, hcode⟩
    -- A token that is not the end has at least one unit, so fewer units are left after it.
    · have hpos : 0 < (t'.tokenFrom (t'.afterBlanks n.toNat)).2 := tokenFrom_length_pos (by omega)
      have hfrom : n.toNat ≤ t'.afterBlanks n.toNat := Nat.le_add_right _ _
      obtain ⟨k, hk, hend⟩ := ih ((scan_text t').trans htext) hnext (by omega) (by omega)
      exact ⟨k + 1, by omega, hend⟩

/-- Scans find the end of the text, after at most one token more than there are units. -/
theorem Regular.reaches_end (h : t.Regular) (hlen : t.text.length < 2 ^ 53) :
    ∃ k ≤ t.text.length + 1, (Tokenizer.next^[k] t).scan.1 = endOfFile := by
  obtain ⟨n, hn⟩ := h.integer hlen
  rcases Int.lt_or_le n 0 with hneg | hnonneg
  · obtain ⟨k, hk, hend⟩ := reaches_end_of_nonneg hlen.le t.text.length (scan_text t)
      (scan_of_neg hn hneg hlen.le).2 (by omega) (by omega)
    exact ⟨k + 1, by omega, hend⟩
  · obtain ⟨k, hk, hend⟩ := reaches_end_of_nonneg hlen.le t.text.length rfl hn hnonneg (by omega)
    exact ⟨k, by omega, hend⟩

end Tokenizer

end ProxySession
