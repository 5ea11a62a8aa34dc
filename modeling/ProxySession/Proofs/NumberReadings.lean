import ProxySession.Proofs.Endings
import ProxySession.Proofs.ExactValues
import ProxySession.Proofs.HandleAccess
import ProxySession.Proofs.Moments
import ProxySession.Session.Item

/-!
# Reading numbers as integers

The conversions to integers read a number by its exact value alone: they give the integer that it is, if
that is in range, and say otherwise that it has the wrong shape. An accessor of flags reads a property so
and keeps the low 32 bits, which are the same whether a word of 32 bits is spelled with a sign or without.
-/

namespace ProxySession

open Effect

variable {v v' : Value} {c : ContextId} {E : Engine} {w w' w₁ : World} {n : ℤ}

/-! ## Conversions -/

theorem Value.IsNumber.present (hv : v.IsNumber) : v.isAbsent = false := by
  cases hv <;> rfl

theorem Conversion.ofOption_run {α : Type} (expected : String) (f : Value → Option α) (v : Value)
    (E : Engine) (w : World) : Conversion.ofOption expected f v E w = match f v with
      | some a => (.ok a, w)
      | none => (.error (.failed (.shapeMismatch expected (w.heap.typeName v))), w) := by
  rw [ofOption]
  cases f v <;> rfl

theorem Conversion.required_of_present {α : Type} {convert : Conversion α} (hv : v.isAbsent = false) :
    convert.required v = convert v := by
  rw [required, hv]
  rfl

namespace Conv

/-- The modes differ in what they make of an absent value only. -/
theorem apply_of_present (hv : v.isAbsent = false) (conv : Conv) (c : ContextId) (mode : ConvMode) :
    conv.apply c mode v = conv.convert c v := by
  cases mode with
  | required => exact Conversion.required_of_present hv
  | nullable =>
    have hn : (conv.convert c).nullable v = some <$> conv.convert c v := by
      rw [Conversion.nullable, hv]
      rfl
    change Item.option id <$> (conv.convert c).nullable v = _
    rw [hn, map_map]
    exact map_id _
  | unchecked => rfl

/-- How a conversion to integers reads a number, whatever the mode and the state: it gives the integer from
`-bound` up to `bound` that the number is, and says otherwise that the number has the wrong shape. -/
structure Decodes (conv : Conv) (expected : String) (bound : ℤ) (v : Value) : Prop where
  integer : ∀ c mode E w n, conv.apply c mode v E w = (.ok (.int n), w) ↔ v.IsWithin bound n
  other : ∀ c mode E w, (∀ n, ¬v.IsWithin bound n) →
    conv.apply c mode v E w = (.error (.failed (.shapeMismatch expected (w.heap.typeName v))), w)

/-- A conversion decodes if it reads through a type that has just the integers in range. -/
theorem Decodes.of_read {conv : Conv} {expected : String} {bound : ℤ} {ι : Type} {f : Value → Option ι}
    {toInt : ι → ℤ} (hv : v.IsNumber)
    (hconv : ∀ c, conv.convert c v = (fun m => .int (toInt m)) <$> Conversion.ofOption expected f v)
    (hf : ∀ m, f v = some m ↔ v.IsWithin bound (toInt m))
    (htype : ∀ n, -bound ≤ n → n < bound → ∃ m, toInt m = n) : conv.Decodes expected bound v := by
  have hrun (c : ContextId) (mode : ConvMode) (E : Engine) (w : World) :
      conv.apply c mode v E w = match f v with
        | some m => (.ok (.int (toInt m)), w)
        | none => (.error (.failed (.shapeMismatch expected (w.heap.typeName v))), w) := by
    rw [apply_of_present hv.present, hconv, map_eq, Conversion.ofOption_run]
    cases f v <;> rfl
  refine ⟨fun c mode E w n => ?_, fun c mode E w hn => ?_⟩
  · rw [hrun]
    constructor
    · intro h
      cases hm : f v with
      | none =>
        rw [hm] at h
        cases h
      | some m =>
        rw [hm] at h
        cases h
        exact (hf m).1 hm
    · intro h
      obtain ⟨m, rfl⟩ := htype n h.2.1 h.2.2
      rw [(hf m).2 h]
  · rw [hrun]
    cases hm : f v with
    | none => rfl
    | some m => exact absurd ((hf m).1 hm) (hn _)

theorem int32_decodes (hv : v.IsNumber) : Conv.int32.Decodes "32-bit integer" (2 ^ 31) v :=
  .of_read hv (fun _ => rfl) (fun _ => Value.exactInt32?_eq_some hv) fun n hle hlt =>
    ⟨.ofInt n, Int32.toInt_ofInt_of_le hle hlt⟩

theorem int64_decodes (hv : v.IsNumber) : Conv.int64.Decodes "64-bit integer" (2 ^ 63) v :=
  .of_read hv (fun _ => rfl) (fun _ => Value.int64?_eq_some hv) fun n hle hlt =>
    ⟨.ofInt n, Int64.toInt_ofInt_of_le hle hlt⟩

end Conv

/-- Only one of the representations can hold a number that is not an integer of 32 bits. -/
theorem Value.IsNumber.typeName_of_not_within (hv : v.IsNumber) {bound : ℤ} (hb : 2 ^ 31 ≤ bound)
    (hn : ∀ n, ¬v.IsWithin bound n) (h : Heap) : h.typeName v = "float" := by
  cases hv with
  | int m =>
    have hlt := m.toInt_lt
    have hle := m.le_toInt
    exact absurd ⟨rfl, by omega, by omega⟩ (hn m.toInt)
  | float x => rfl

/-- Numbers of one exact value decode alike, whatever their representations. -/
theorem Conv.Decodes.congr {conv : Conv} {expected : String} {bound : ℤ}
    (hd : conv.Decodes expected bound v) (hd' : conv.Decodes expected bound v') (hv : v.IsNumber)
    (hv' : v'.IsNumber) (hb : 2 ^ 31 ≤ bound) (he : v'.rational? = v.rational?) (c : ContextId)
    (mode : ConvMode) : conv.apply c mode v' = conv.apply c mode v := by
  funext E w
  by_cases h : ∃ n, v.IsWithin bound n
  · obtain ⟨n, hn⟩ := h
    rw [(hd.integer c mode E w n).2 hn, (hd'.integer c mode E w n).2 ((Value.IsWithin.congr he).2 hn)]
  · have hn (n : ℤ) : ¬v.IsWithin bound n := fun hn => h ⟨n, hn⟩
    have hn' (n : ℤ) : ¬v'.IsWithin bound n := fun hw => hn n ((Value.IsWithin.congr he).1 hw)
    rw [hd.other c mode E w hn, hd'.other c mode E w hn', hv.typeName_of_not_within hb hn,
      hv'.typeName_of_not_within hb hn']

/-! ## Reads through a handle -/

theorem World.dropContext_heap (c : ContextId) (w : World) : (World.dropContext c w).heap = w.heap :=
  (congrArg World.heap (World.dropContext_indoors c w).rest).symm

/-- What works on the object goes on with the value that the property has, and adds nothing to where the
read leaves the world. -/
theorem ProxyCore.read_of_access {α : Type} {g : ProxyCore} {name : String} {convert : Conversion α}
    {r : Except SessionError α} (hv : v.isAbsent = false)
    (ha : g.access name (fun r => g.context.property r name) E w = (.ok v, w'))
    (hconvert : ∀ w₁ : World, w₁.heap = w'.heap → convert v E w₁ = (r.mapError .failed, w₁)) :
    g.read name convert E w =
      (r.mapError fun e => .failed (.located (g.site name) e), w') := by
  rw [ProxyCore.read]
  cases ho : g.objectAt w with
  | error e =>
    rw [ProxyCore.access_of_error ho] at ha
    cases ha
  | ok o =>
    rw [ProxyCore.access_of_ok ho] at ha ⊢
    generalize World.holdContext g.context w = w₀ at ha ⊢
    rcases hrun : g.context.property o name E w₀ with ⟨stop | v', w₁⟩
    · rw [hrun] at ha
      cases ha
    · rw [hrun] at ha
      obtain ⟨rfl, rfl⟩ : v' = v ∧ World.dropContext g.context w₁ = w' := by
        simpa [Except.mapError] using ha
      have hread : (g.context.property o name >>= convert.required) E w₀ = (r.mapError .failed, w₁) := by
        rw [bind_of_ok hrun, Conversion.required_of_present hv]
        exact hconvert w₁ (World.dropContext_heap g.context w₁).symm
      rw [hread]
      cases r <;> rfl

/-! ## Flags -/

/-- An accessor of flags, with the proxy that it is asked of. -/
inductive FlagAccessor where
  | node (n : Node)
  | type (t : TypeProxy)
  | object (t : ObjectType)
  | symbol (s : SymbolProxy)

namespace FlagAccessor

def core : FlagAccessor → ProxyCore
  | node n => n.core
  | type t => t.core
  | object t => t.type.core
  | symbol s => s.core

/-- The property that holds the flags. -/
def property : FlagAccessor → String
  | object _ => "objectFlags"
  | _ => "flags"

/-- The bits of the flags. -/
def bits : FlagAccessor → Operation UInt32
  | node n => n.flags
  | type t => FlagWord.bits <$> t.flags
  | object t => FlagWord.bits <$> t.type.objectFlags
  | symbol s => FlagWord.bits <$> s.flags

/-- Reads the property as it is. -/
def raw (a : FlagAccessor) : Operation Value :=
  a.core.access a.property fun r => a.core.context.property r a.property

/-- Every accessor keeps the low bits of a 64-bit integer. -/
theorem bits_eq (a : FlagAccessor) :
    a.bits = (fun n => n.toUInt64.toUInt32) <$> a.core.read a.property Conversion.toInt64 := by
  cases a with
  | node n => rfl
  | type t => exact map_map FlagWord.bits _ _
  | object t => exact map_map FlagWord.bits _ _
  | symbol s => exact map_map FlagWord.bits _ _

theorem bits_of_raw {a : FlagAccessor} (hv : v.IsNumber) (ha : a.raw E w = (.ok v, w')) :
    a.bits E w = match v.int64? with
      | some n => (.ok n.toUInt64.toUInt32, w')
      | none => (.error (.failed (.located (a.core.site a.property)
          (.shapeMismatch "64-bit integer" (w'.heap.typeName v)))), w') := by
  let r : Except SessionError Int64 := match v.int64? with
    | some n => .ok n
    | none => .error (.shapeMismatch "64-bit integer" (w'.heap.typeName v))
  have hconvert (w₁ : World) (hw : w₁.heap = w'.heap) :
      Conversion.toInt64 v E w₁ = (r.mapError .failed, w₁) := by
    rw [Conversion.toInt64, Conversion.ofOption_run, hw]
    simp only [r]
    cases v.int64? <;> rfl
  rw [bits_eq, map_eq, ProxyCore.read_of_access hv.present ha hconvert]
  simp only [r]
  cases v.int64? <;> rfl

theorem lowBits_toNat (n : Int64) : (n.toUInt64.toUInt32.toNat : ℤ) = n.toInt % 2 ^ 32 := by
  have hcond : n.toInt = n.toUInt64.toNat ∨ n.toInt = n.toUInt64.toNat - 2 ^ 64 := by
    have h := BitVec.toInt_eq_toNat_cond n.toBitVec
    split at h
    · exact .inl h
    · exact .inr h
  rw [UInt64.toNat_toUInt32]
  omega

/-- What the bits are that an accessor reads from a number: those of the integer modulo `2 ^ 32`, and so of
a word of 32 bits in either spelling. -/
structure Decodes (a : FlagAccessor) (v : Value) (E : Engine) (w w' : World) : Prop where
  integer : ∀ n, v.IsWithin (2 ^ 63) n →
    ∃ u : UInt32, a.bits E w = (.ok u, w') ∧ (u.toNat : ℤ) = n % 2 ^ 32
  spelled : ∀ u : UInt32, v.rational? = some (u.toNat : ℚ) ∨ v.rational? = some (u.toInt32.toInt : ℚ) →
    a.bits E w = (.ok u, w')
  other : (∀ n, ¬v.IsWithin (2 ^ 63) n) → a.bits E w =
    (.error (.failed (.located (a.core.site a.property)
      (.shapeMismatch "64-bit integer" (w'.heap.typeName v)))), w')

/-- A word of 32 bits spelled with its sign is as much modulo `2 ^ 32`. -/
theorem spelled_within {u : UInt32}
    (h : v.rational? = some (u.toNat : ℚ) ∨ v.rational? = some (u.toInt32.toInt : ℚ)) :
    ∃ n, v.IsWithin (2 ^ 63) n ∧ n % 2 ^ 32 = u.toNat := by
  have hlt : u.toNat < 2 ^ 32 := u.toNat_lt
  have hcond : u.toInt32.toInt = u.toNat ∨ u.toInt32.toInt = u.toNat - 2 ^ 32 := by
    have h := BitVec.toInt_eq_toNat_cond u.toInt32.toBitVec
    split at h
    · exact .inl h
    · exact .inr h
  rcases h with h | h
  · exact ⟨u.toNat, ⟨by exact_mod_cast h, by omega, by omega⟩, by omega⟩
  · exact ⟨u.toInt32.toInt, ⟨h, by omega, by omega⟩, by omega⟩

theorem decodes {a : FlagAccessor} (hv : v.IsNumber) (ha : a.raw E w = (.ok v, w')) :
    a.Decodes v E w w' := by
  have hinteger (n : ℤ) (hn : v.IsWithin (2 ^ 63) n) :
      ∃ u : UInt32, a.bits E w = (.ok u, w') ∧ (u.toNat : ℤ) = n % 2 ^ 32 := by
    have hint : (Int64.ofInt n).toInt = n := Int64.toInt_ofInt_of_le hn.2.1 hn.2.2
    refine ⟨(Int64.ofInt n).toUInt64.toUInt32, ?_, ?_⟩
    · rw [bits_of_raw hv ha, (Value.int64?_eq_some hv).2 (hint.symm ▸ hn)]
    · rw [lowBits_toNat, hint]
  refine ⟨hinteger, fun u hu => ?_, fun hn => ?_⟩
  · obtain ⟨n, hn, hmod⟩ := spelled_within hu
    obtain ⟨u', hbits, hu'⟩ := hinteger n hn
    obtain rfl : u' = u := UInt32.toNat_inj.1 (by exact_mod_cast hu'.trans hmod)
    exact hbits
  · have hnone : v.int64? = none := Option.eq_none_iff_forall_ne_some.2 fun m hm =>
      hn m.toInt ((Value.int64?_eq_some hv).1 hm)
    rw [bits_of_raw hv ha, hnone]

end FlagAccessor

/-! ## Every number -/

namespace Value

/-- Every number decodes exactly, whichever of its representations and bit patterns it has: as the integer
that it is if that is in range, for integers of 32 bits, of 64 bits and for flags, which keep the low bits. -/
theorem numbers_decode_exactly (hv : v.IsNumber) :
    Conv.int32.Decodes "32-bit integer" (2 ^ 31) v ∧
    Conv.int64.Decodes "64-bit integer" (2 ^ 63) v ∧
    (∀ v' : Value, v'.IsNumber → v'.rational? = v.rational? → ∀ c mode,
      Conv.int32.apply c mode v' = Conv.int32.apply c mode v ∧
      Conv.int64.apply c mode v' = Conv.int64.apply c mode v) ∧
    (∀ c mode E w n, Conv.int32.apply c mode v E w = (.ok (.int n), w) →
      Conv.int64.apply c mode v E w = (.ok (.int n), w)) ∧
    ∀ (a : FlagAccessor) E w w', a.raw E w = (.ok v, w') → a.Decodes v E w w' := by
  have h32 := Conv.int32_decodes hv
  have h64 := Conv.int64_decodes hv
  refine ⟨h32, h64, fun v' hv' he c mode => ⟨?_, ?_⟩, fun c mode E w n h => ?_, fun a E w w' ha => ?_⟩
  · exact h32.congr (Conv.int32_decodes hv') hv hv' (by norm_num) he c mode
  · exact h64.congr (Conv.int64_decodes hv') hv hv' (by norm_num) he c mode
  · exact (h64.integer c mode E w n).2 (((h32.integer c mode E w n).1 h).mono (by norm_num))
  · exact FlagAccessor.decodes hv ha

/-- The sample session's world with the node resolved, where the node has flags: all 32 bits, spelled with a
sign. -/
def flaggedWorld : World :=
  let w := Session.sampleWorld 2
  let flags : Property := ⟨.ofString "flags", .data (.float ⟨0xbff0000000000000⟩), true⟩
  { w with heap := w.heap.update ⟨6⟩ fun o => o.define flags }

/-- The flags read as the word of all bits, and the number itself as an integer of either size. -/
theorem numbers_decode_exactly_sample :
    Conv.int32.Decodes "32-bit integer" (2 ^ 31) (float ⟨0xbff0000000000000⟩) ∧
    (Node.flags ⟨⟨0⟩, 7, ⟨5⟩⟩ (Engine.ofFuel 3 stackSize) flaggedWorld).1 = .ok 0xffffffff := by
  obtain ⟨h32, _, _, _, hflags⟩ := numbers_decode_exactly (.float ⟨0xbff0000000000000⟩)
  let a : FlagAccessor := .node ⟨⟨0⟩, 7, ⟨5⟩⟩
  have hraw : (a.raw (Engine.ofFuel 3 stackSize) flaggedWorld).1.toOption =
      some (float ⟨0xbff0000000000000⟩) := by
    decide +kernel
  have hexact : rational? (float ⟨0xbff0000000000000⟩) = some ((0xffffffff : UInt32).toInt32.toInt : ℚ) :=
    exactInt?_eq_some.1 (by decide +kernel)
  have hdecodes := hflags a _ _ _ (Session.run_of_toOption hraw)
  exact ⟨h32, congrArg Prod.fst (hdecodes.spelled 0xffffffff (.inr hexact))⟩

end Value

end ProxySession
