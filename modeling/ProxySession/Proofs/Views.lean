import ProxySession.Proofs.Cycles

/-!
# Views and flags

A type has a view just if its flags have a bit of the view; for a type reference the object flags must have
theirs too. The query for a view, the demand for it and the conversion to it judge a type by the same flags:
where one finds the view the others do, and where one fails to read the flags they all fail alike. Object flags
are read of object types only.
-/

namespace ProxySession

open Effect

variable {f : FlagFamily} {t : TypeProxy} {v : TypeView} {w w₀ : World} {E : Engine} {n m : Int64}
  {e : SessionError}

/-! ## Bits -/

namespace FlagWord

variable {a b : FlagWord f} {i : ℕ}

def Has (a : FlagWord f) (i : ℕ) : Prop := a.bits.toBitVec.getLsbD i = true

theorem has_and : (a.bits.toBitVec &&& b.bits.toBitVec).getLsbD i = true ↔ a.Has i ∧ b.Has i := by
  rw [BitVec.getLsbD_and, Bool.and_eq_true]
  rfl

theorem contains_iff : a.contains b = true ↔ ∀ i, b.Has i → a.Has i := by
  rw [contains, beq_iff_eq, ← UInt32.toBitVec_inj, UInt32.toBitVec_and]
  constructor
  · intro h i hi
    exact (has_and.1 ((congrArg (BitVec.getLsbD · i) h).trans hi)).1
  · intro h
    refine BitVec.eq_of_getLsbD_eq fun i _ => Bool.eq_iff_iff.2 (has_and.trans ?_)
    exact ⟨And.right, fun hi => ⟨h i hi, hi⟩⟩

theorem intersects_iff : a.intersects b = true ↔ ∃ i, a.Has i ∧ b.Has i := by
  rw [intersects, bne_iff_ne, Ne, ← UInt32.toBitVec_inj, UInt32.toBitVec_and, UInt32.toBitVec_zero]
  constructor
  · intro h
    by_contra hnone
    refine h (BitVec.eq_of_getLsbD_eq fun i _ => Eq.trans ?_ BitVec.getLsbD_zero.symm)
    exact Bool.eq_false_iff.2 fun hi => hnone ⟨i, has_and.1 hi⟩
  · rintro ⟨i, hi⟩ h
    have hzero := has_and.2 hi
    rw [h, BitVec.getLsbD_zero] at hzero
    cases hzero

end FlagWord

/-- The bit number `i` is set in two's complement. -/
def HasBit (n : Int64) (i : ℕ) : Prop := n.toBitVec.getLsbD i = true

instance (n : Int64) (i : ℕ) : Decidable (HasBit n i) := inferInstanceAs (Decidable (_ = true))

/-- A flag word keeps the low bits of an integer. -/
theorem FlagWord.ofInt64_has {i : ℕ} : (ofInt64 n : FlagWord f).Has i ↔ i < 32 ∧ HasBit n i := by
  have hbits : (ofInt64 n : FlagWord f).bits.toBitVec = n.toBitVec.setWidth 32 := rfl
  rw [Has, hbits, BitVec.getLsbD_setWidth, Bool.and_eq_true, decide_eq_true_iff]
  rfl

namespace TypeView

/-- The numbers of the bits that make a type of a view. -/
def bitNumbers : TypeView → List ℕ
  | object | reference => [19]
  | union => [20]
  | intersection => [21]
  | literal => [7, 8, 11]

def Selects (v : TypeView) (n : Int64) : Prop := ∃ i ∈ v.bitNumbers, HasBit n i

instance (v : TypeView) (n : Int64) : Decidable (v.Selects n) := inferInstanceAs (Decidable (∃ i ∈ _, _))

theorem mask_has {i : ℕ} (hi : i < 32) : v.mask.Has i ↔ i ∈ v.bitNumbers := by
  have hall : ∀ i < 32, v.mask.bits.toBitVec.getLsbD i = true ↔ i ∈ v.bitNumbers := by
    cases v <;> decide
  exact hall i hi

theorem bitNumbers_lt {i : ℕ} (h : i ∈ v.bitNumbers) : i < 32 := by
  have hall : ∀ i ∈ v.bitNumbers, i < 32 := by cases v <;> decide
  exact hall i h

theorem intersects_mask : (FlagWord.ofInt64 n).intersects v.mask = true ↔ v.Selects n := by
  rw [FlagWord.intersects_iff]
  constructor
  · rintro ⟨i, hn, hv⟩
    obtain ⟨hi, hbit⟩ := FlagWord.ofInt64_has.1 hn
    exact ⟨i, (mask_has hi).1 hv, hbit⟩
  · rintro ⟨i, hv, hbit⟩
    have hi : i < 32 := bitNumbers_lt hv
    exact ⟨i, FlagWord.ofInt64_has.2 ⟨hi, hbit⟩, (mask_has hi).2 hv⟩

end TypeView

theorem contains_reference :
    (FlagWord.ofInt64 m).contains ObjectFlags.reference = true ↔ HasBit m 2 := by
  have hreference (i : ℕ) : ObjectFlags.reference.Has i ↔ 2 = i := by
    have hbits : ObjectFlags.reference.bits.toBitVec = BitVec.twoPow 32 2 := rfl
    rw [FlagWord.Has, hbits, BitVec.getLsbD_twoPow, Bool.and_eq_true, decide_eq_true_iff, decide_eq_true_iff]
    exact and_iff_right (by decide)
  rw [FlagWord.contains_iff]
  constructor
  · intro h
    exact (FlagWord.ofInt64_has.1 (h 2 ((hreference 2).2 rfl))).2
  · intro h i hi
    rw [← (hreference i).1 hi]
    exact FlagWord.ofInt64_has.2 ⟨by decide, h⟩

/-! ## Reading integers -/

/-- The integer that a value stands for as a required one. -/
def Value.asInt64 (h : Heap) (x : Value) : Except SessionError Int64 :=
  if x.isAbsent then .error .missingValue
  else match x.int64? with
    | some n => .ok n
    | none => .error (.shapeMismatch "64-bit integer" (h.typeName x))

theorem toInt64_required (x : Value) (E : Engine) (w : World) :
    Conversion.toInt64.required x E w = ((x.asInt64 w.heap).mapError .failed, w) := by
  rw [Conversion.required, Value.asInt64]
  split
  · rfl
  · rw [Conversion.toInt64, Conversion.ofOption_run]
    cases x.int64? <;> rfl

namespace ProxyCore

variable {α : Type} {g : ProxyCore} {name : String} {r : ObjectRef}

/-- Only data is found under a name of the object. -/
def IsPlain (g : ProxyCore) (name : String) (w : World) : Prop :=
  ∀ r, g.objectAt w = .ok r → (w.heap.datum? r name).isSome

/-- The integer that data holds under a name of the object. -/
def int64At (g : ProxyCore) (name : String) (w : World) : Except SessionError Int64 :=
  (do ((w.heap.datum? (← g.objectAt w) name).getD .undefined).asInt64 w.heap).mapError
    (.located (g.site name))

theorem int64At_of_error (h : g.objectAt w = .error e) :
    g.int64At name w = .error (.located (g.site name) e) := by
  rw [int64At, h]
  rfl

theorem int64At_of_datum {x : Value} (h : g.objectAt w = .ok r) (hx : w.heap.datum? r name = some x) :
    g.int64At name w = (x.asInt64 w.heap).mapError (.located (g.site name)) := by
  rw [int64At, h]
  change (((w.heap.datum? r name).getD .undefined).asInt64 w.heap).mapError _ = _
  rw [hx]
  rfl

/-- Data is read without a trace. -/
theorem read_of_plain (h : g.IsPlain name w) (E : Engine) :
    g.read name Conversion.toInt64 E w = ((g.int64At name w).mapError .failed, w) := by
  rw [read]
  cases ho : g.objectAt w with
  | error e =>
    rw [access_of_error ho, int64At_of_error ho]
    rfl
  | ok r =>
    obtain ⟨x, hx⟩ := Option.isSome_iff_exists.1 (h r ho)
    have hread (w₁ : World) (hw : w₁.heap = w.heap) :
        (g.context.property r name >>= Conversion.toInt64.required) E w₁ =
          ((x.asInt64 w.heap).mapError .failed, w₁) := by
      rw [← hw] at hx ⊢
      exact (bind_of_ok (ContextId.property_of_datum hx E)).trans (toInt64_required x E w₁)
    have hback : World.dropContext g.context (World.holdContext g.context w) = w :=
      World.drop_hold fun hnone => absurd hnone (references_of_objectAt ho)
    rw [access_of_ok ho, hread (World.holdContext g.context w) rfl, hback, int64At_of_datum ho hx]
    cases x.asInt64 w.heap <;> rfl

/-- What goes wrong with a read is told with the name that was read. -/
theorem int64At_located (h : g.int64At name w = .error e) : ∃ e', e = .located (g.site name) e' := by
  rw [int64At] at h
  cases hx : (do ((w.heap.datum? (← g.objectAt w) name).getD .undefined).asInt64 w.heap :
      Except SessionError Int64) with
  | ok n =>
    rw [hx] at h
    cases h
  | error e' =>
    rw [hx] at h
    cases h
    exact ⟨e', rfl⟩

end ProxyCore

/-! ## What the flags say -/

/-- What the flags of a type say of a view: the type has it, the type is of another kind, or there is no
telling. -/
inductive Verdict where
  | seen
  | lacking (kind : String)
  | unreadable (e : SessionError)

namespace Verdict

/-- How a query for the view answers. -/
def query (t : TypeProxy) (v : TypeView) : Verdict → Except (Stop SessionError) (Option (View v))
  | seen => .ok (some ⟨t⟩)
  | lacking _ => .ok none
  | unreadable e => .error (.failed e)

/-- How a demand for the view answers. -/
def demand (t : TypeProxy) (v : TypeView) : Verdict → Except (Stop SessionError) (View v)
  | seen => .ok ⟨t⟩
  | lacking kind => .error (.failed (.kindMismatch v.name kind))
  | unreadable e => .error (.failed e)

variable {verdict : Verdict}

theorem query_eq_some {view : View v} :
    verdict.query t v = .ok (some view) ↔ view = ⟨t⟩ ∧ .seen = verdict := by
  cases verdict <;> simp [query, eq_comm]

theorem query_eq_none : verdict.query t v = .ok none ↔ ∃ kind, .lacking kind = verdict := by
  cases verdict <;> simp [query]

theorem query_eq_error {stop : Stop SessionError} :
    verdict.query t v = .error stop ↔ ∃ e, stop = .failed e ∧ .unreadable e = verdict := by
  cases verdict <;> simp [query, eq_comm]

end Verdict

namespace TypeProxy

def flagsAt (t : TypeProxy) (w : World) : Except SessionError Int64 := t.core.int64At "flags" w

def objectFlagsAt (t : TypeProxy) (w : World) : Except SessionError Int64 := t.core.int64At "objectFlags" w

/-- The flags of the type are data. So are its object flags, if the flags make it an object type; those of
any other type may be what they like. -/
structure HasPlainFlags (t : TypeProxy) (w : World) : Prop where
  flags : t.core.IsPlain "flags" w
  objectFlags : ∀ n, t.flagsAt w = .ok n → HasBit n 19 → t.core.IsPlain "objectFlags" w

def kindText (t : TypeProxy) (n : Int64) : String :=
  "type " ++ toString t.key.toInt ++ " with flags " ++ (FlagWord.ofInt64 n : FlagWord typeFlags).debug

def objectKindText (t : TypeProxy) (m : Int64) : String :=
  "object type " ++ toString t.key.toInt ++ " with object flags " ++
    (FlagWord.ofInt64 m : FlagWord ProxySession.objectFlags).debug

/-- The verdict on a type and a view. Object flags are asked for only where the flags speak for a type
reference. -/
inductive Judged (t : TypeProxy) (w : World) : TypeView → Verdict → Prop
  | unreadable {v : TypeView} {e : SessionError} :
      t.flagsAt w = .error e → Judged t w v (.unreadable e)
  | other {v : TypeView} {n : Int64} :
      t.flagsAt w = .ok n → ¬v.Selects n → Judged t w v (.lacking (t.kindText n))
  | seen {v : TypeView} {n : Int64} :
      t.flagsAt w = .ok n → v.Selects n → v ≠ .reference → Judged t w v .seen
  | objectUnreadable {n : Int64} {e : SessionError} :
      t.flagsAt w = .ok n → HasBit n 19 → t.objectFlagsAt w = .error e → Judged t w .reference (.unreadable e)
  | otherObject {n m : Int64} :
      t.flagsAt w = .ok n → HasBit n 19 → t.objectFlagsAt w = .ok m → ¬HasBit m 2 →
        Judged t w .reference (.lacking (t.objectKindText m))
  | reference {n m : Int64} :
      t.flagsAt w = .ok n → HasBit n 19 → t.objectFlagsAt w = .ok m → HasBit m 2 → Judged t w .reference .seen

theorem selects_object : TypeView.object.Selects n ↔ HasBit n 19 := by
  rw [TypeView.Selects, TypeView.bitNumbers]
  simp

theorem selects_reference : TypeView.reference.Selects n ↔ HasBit n 19 := selects_object

theorem exists_judged (t : TypeProxy) (w : World) (v : TypeView) : ∃ verdict, t.Judged w v verdict := by
  cases hn : t.flagsAt w with
  | error e => exact ⟨_, .unreadable hn⟩
  | ok n =>
    by_cases hv : v.Selects n
    · by_cases hne : v = .reference
      · subst hne
        have hobject := selects_reference.1 hv
        cases hm : t.objectFlagsAt w with
        | error e => exact ⟨_, .objectUnreadable hn hobject hm⟩
        | ok m =>
          by_cases hbit : HasBit m 2
          · exact ⟨_, .reference hn hobject hm hbit⟩
          · exact ⟨_, .otherObject hn hobject hm hbit⟩
      · exact ⟨_, .seen hn hv hne⟩
    · exact ⟨_, .other hn hv⟩

/-- There is only one verdict. -/
theorem Judged.iff_eq {verdict verdict' : Verdict} (h : t.Judged w v verdict) :
    t.Judged w v verdict' ↔ verdict' = verdict := by
  refine ⟨fun h' => ?_, fun heq => heq ▸ h⟩
  -- two constructors either agree on what was read, or say opposite things of it
  cases h <;> cases h' <;> grind [selects_reference]

theorem Judged.object (h : t.Judged w .reference .seen) : t.Judged w .object .seen := by
  cases h with
  | seen hn hv hne => exact absurd rfl hne
  | reference hn hobject hm hbit => exact .seen hn (selects_object.2 hobject) nofun

/-- The object flags of a type that is no object type keep nothing from being told. -/
theorem Judged.readable (h : t.Judged w v (.unreadable e)) (hn : t.flagsAt w = .ok n) : HasBit n 19 := by
  cases h with
  | unreadable he =>
    rw [hn] at he
    cases he
  | objectUnreadable hn' hobject he =>
    rw [hn] at hn'
    cases hn'
    exact hobject

/-! ## Queries and demands -/

theorem flags_of_error (h : t.HasPlainFlags w) (he : t.flagsAt w = .error e) (E : Engine) :
    TypeProxy.flags t E w = (.error (.failed e), w) := by
  rw [flags, bind_eq, ProxyCore.read_of_plain h.flags, ← flagsAt, he]
  rfl

theorem flags_of_ok (h : t.HasPlainFlags w) (hn : t.flagsAt w = .ok n) (E : Engine) :
    TypeProxy.flags t E w = (.ok (.ofInt64 n), w) := by
  rw [flags, bind_eq, ProxyCore.read_of_plain h.flags, ← flagsAt, hn]
  rfl

theorem objectFlags_of_error (h : t.HasPlainFlags w) (hn : t.flagsAt w = .ok n) (hobject : HasBit n 19)
    (he : t.objectFlagsAt w = .error e) (E : Engine) :
    TypeProxy.objectFlags t E w = (.error (.failed e), w) := by
  rw [objectFlags, bind_eq, ProxyCore.read_of_plain (h.objectFlags n hn hobject), ← objectFlagsAt, he]
  rfl

theorem objectFlags_of_ok (h : t.HasPlainFlags w) (hn : t.flagsAt w = .ok n) (hobject : HasBit n 19)
    (hm : t.objectFlagsAt w = .ok m) (E : Engine) :
    TypeProxy.objectFlags t E w = (.ok (.ofInt64 m), w) := by
  rw [objectFlags, bind_eq, ProxyCore.read_of_plain (h.objectFlags n hn hobject), ← objectFlagsAt, hm]
  rfl

theorem hasFlagsOf_of_error (h : t.HasPlainFlags w) (he : t.flagsAt w = .error e) (v : TypeView)
    (E : Engine) : TypeProxy.hasFlagsOf t v E w = (.error (.failed e), w) :=
  bind_of_error (flags_of_error h he E)

theorem hasFlagsOf_of_ok (h : t.HasPlainFlags w) (hn : t.flagsAt w = .ok n) (v : TypeView) (E : Engine) :
    TypeProxy.hasFlagsOf t v E w = (.ok (decide (v.Selects n)), w) := by
  rw [hasFlagsOf, bind_of_ok (flags_of_ok h hn E)]
  rw [Bool.eq_iff_iff.2 (TypeView.intersects_mask.trans decide_eq_true_iff.symm)]
  rfl

theorem asView_of_judged {verdict : Verdict} (h : t.HasPlainFlags w) (hjudged : t.Judged w v verdict)
    (E : Engine) : TypeProxy.asView t v E w = (verdict.query t v, w) := by
  rw [asView.eq_def]
  cases hjudged with
  | unreadable he => exact bind_of_error (hasFlagsOf_of_error h he v E)
  | other hn hv =>
    rw [bind_of_ok (hasFlagsOf_of_ok h hn v E), decide_eq_false hv]
    rfl
  | seen hn hv hne =>
    rw [bind_of_ok (hasFlagsOf_of_ok h hn v E), decide_eq_true hv]
    cases v with
    | reference => exact absurd rfl hne
    | _ => rfl
  | objectUnreadable hn hobject he =>
    rw [bind_of_ok (hasFlagsOf_of_ok h hn _ E), decide_eq_true (selects_reference.2 hobject)]
    exact bind_of_error (objectFlags_of_error h hn hobject he E)
  | otherObject hn hobject hm hbit =>
    rw [bind_of_ok (hasFlagsOf_of_ok h hn _ E), decide_eq_true (selects_reference.2 hobject)]
    refine (bind_of_ok (objectFlags_of_ok h hn hobject hm E)).trans ?_
    rw [if_neg (mt contains_reference.1 hbit)]
    rfl
  | reference hn hobject hm hbit =>
    rw [bind_of_ok (hasFlagsOf_of_ok h hn _ E), decide_eq_true (selects_reference.2 hobject)]
    refine (bind_of_ok (objectFlags_of_ok h hn hobject hm E)).trans ?_
    rw [if_pos (contains_reference.2 hbit)]
    rfl

theorem describeFlags_of_ok (h : t.HasPlainFlags w) (hn : t.flagsAt w = .ok n) (E : Engine) :
    TypeProxy.describeFlags t E w = (.ok (t.kindText n), w) := by
  rw [describeFlags, bind_of_ok (flags_of_ok h hn E)]
  rfl

/-- The flags are read once more to tell what the type is instead. -/
theorem describe_of_judged {kind : String} (h : t.HasPlainFlags w) (hjudged : t.Judged w v (.lacking kind))
    (E : Engine) : TypeProxy.describe t v E w = (.ok kind, w) := by
  cases hjudged with
  | other hn hv =>
    cases v with
    | reference =>
      have hobject : ¬TypeView.object.Selects _ := hv
      rw [describe, bind_of_ok (hasFlagsOf_of_ok h hn _ E), decide_eq_false hobject]
      exact describeFlags_of_ok h hn E
    | _ => exact describeFlags_of_ok h hn E
  | otherObject hn hobject hm hbit =>
    rw [describe, bind_of_ok (hasFlagsOf_of_ok h hn _ E), decide_eq_true (selects_object.2 hobject)]
    exact (bind_of_ok (objectFlags_of_ok h hn hobject hm E)).trans rfl

theorem toView_of_judged {verdict : Verdict} (h : t.HasPlainFlags w) (hjudged : t.Judged w v verdict)
    (E : Engine) : TypeProxy.toView t v E w = (verdict.demand t v, w) := by
  have hquery := asView_of_judged h hjudged E
  rw [toView]
  cases verdict with
  | seen => exact bind_of_ok hquery
  | lacking kind =>
    -- the query left the world as it was, so the verdict still holds for the description
    rw [bind_of_ok hquery]
    exact bind_of_ok (describe_of_judged h hjudged E)
  | unreadable e => exact bind_of_error hquery

/-- The conversion to a view demands it of the type that the value resolves to. -/
theorem convert_of_judged {c : ContextId} {mode : ConvMode} {x : Value} {verdict : Verdict}
    (h : t.HasPlainFlags w) (hjudged : t.Judged w v verdict)
    (hresolved : c.resolve .type x E w₀ = (.ok t, w)) :
    (Conv.view v).apply c mode x E w₀ = ((verdict.demand t v).map .view, w) := by
  have hx : x.isAbsent = false := by
    cases x with
    | undefined => cases hresolved
    | null => cases hresolved
    | _ => rfl
  rw [Conv.apply_of_present hx]
  refine (bind_of_ok hresolved).trans ((map_eq _ _ _ _).trans ?_)
  rw [toView_of_judged h hjudged]

/-! ## Agreement -/

/-- No failure to read the flags looks like a failure to find the view. -/
theorem Judged.unreadable_ne {expected kind : String} (h : t.Judged w v (.unreadable e)) :
    e ≠ .kindMismatch expected kind := by
  rintro rfl
  cases h with
  | unreadable he => cases (ProxyCore.int64At_located he).choose_spec
  | objectUnreadable _ _ he => cases (ProxyCore.int64At_located he).choose_spec

/-- A route to a view goes the way of the query: to the same view, to a failure with the name of the view for
a type of another kind, and to the same failure. -/
structure Agrees (v : TypeView) (query : Except (Stop SessionError) (Option (View v)))
    (route : Except (Stop SessionError) (View v)) : Prop where
  seen : ∀ view, route = .ok view ↔ query = .ok (some view)
  lacking : (∃ kind, route = .error (.failed (.kindMismatch v.name kind))) ↔ query = .ok none
  stopped : ∀ stop, query = .error stop → route = .error stop

/-- The demand fails for a type of another kind, and tells which. -/
theorem Judged.demand_eq_mismatch {verdict : Verdict} {kind : String} (h : t.Judged w v verdict) :
    verdict.demand t v = .error (.failed (.kindMismatch v.name kind)) ↔ .lacking kind = verdict := by
  refine ⟨fun hkind => ?_, fun heq => heq ▸ rfl⟩
  cases verdict with
  | seen => cases hkind
  | lacking kind' =>
    cases hkind
    rfl
  | unreadable e => exact absurd (Stop.failed.inj (Except.error.inj hkind)) h.unreadable_ne

theorem Judged.agrees {verdict : Verdict} (h : t.Judged w v verdict) :
    Agrees v (verdict.query t v) (verdict.demand t v) where
  seen view := by cases verdict <;> simp [Verdict.query, Verdict.demand]
  lacking := by simp only [h.demand_eq_mismatch, Verdict.query_eq_none]
  stopped stop hstop := by
    obtain ⟨e, rfl, rfl⟩ := Verdict.query_eq_error.1 hstop
    rfl

/-- What a query for a view found out follows from the flags of the type, and all routes to the view go the
way of the query. -/
structure FollowsFlags (t : TypeProxy) (v : TypeView) (w : World)
    (query : Except (Stop SessionError) (Option (View v)) × World) : Prop where
  unchanged : query.2 = w
  seen : ∀ view, query.1 = .ok (some view) ↔ view = ⟨t⟩ ∧ t.Judged w v .seen
  lacking : query.1 = .ok none ↔ ∃ kind, t.Judged w v (.lacking kind)
  stopped : ∀ stop, query.1 = .error stop ↔ ∃ e, stop = .failed e ∧ t.Judged w v (.unreadable e)
  /-- The object flags of a type that is no object type are not read, even if an accessor stands for them, so
  they cannot fail a query. -/
  answered : ∀ n, t.flagsAt w = .ok n → ¬HasBit n 19 → ∃ answer, query.1 = .ok answer
  /-- A type reference is an object type. -/
  object : ∀ (view : View v) (E : Engine), v = .reference → query.1 = .ok (some view) →
    (TypeProxy.asView t .object E w).1 = .ok (some ⟨t⟩)
  demand : ∀ E : Engine, (TypeProxy.toView t v E w).2 = w ∧ Agrees v query.1 (TypeProxy.toView t v E w).1
  /-- The demand says what the type is instead. -/
  mismatch : ∀ (E : Engine) (kind : String), (TypeProxy.toView t v E w).1 =
    .error (.failed (.kindMismatch v.name kind)) ↔ t.Judged w v (.lacking kind)
  conversion : ∀ (c : ContextId) (mode : ConvMode) (x : Value) (E : Engine) (w₀ : World),
    c.resolve .type x E w₀ = (.ok t, w) →
      ∃ route, (Conv.view v).apply c mode x E w₀ = (route.map .view, w) ∧ Agrees v query.1 route

/-- Whatever the flags of a type are, every route to a view follows them. The query gives the view of just
this type if the flags have a bit of the view, and for a type reference the object flags theirs; it gives none
if they do not; and it fails just if the flags that it needs cannot be read. The demand and the conversion
agree with it. -/
theorem views_follow_flags (h : t.HasPlainFlags w) (v : TypeView) (E : Engine) :
    t.FollowsFlags v w (TypeProxy.asView t v E w) := by
  obtain ⟨verdict, hverdict⟩ := t.exists_judged w v
  rw [asView_of_judged h hverdict E]
  constructor
  case unchanged => rfl
  case seen =>
    simp only [hverdict.iff_eq]
    exact fun view => Verdict.query_eq_some
  case lacking =>
    simp only [hverdict.iff_eq]
    exact Verdict.query_eq_none
  case stopped =>
    simp only [hverdict.iff_eq]
    exact fun stop => Verdict.query_eq_error
  case answered =>
    intro n hn hobject
    cases verdict with
    | unreadable e => exact absurd (hverdict.readable hn) hobject
    | _ => exact ⟨_, rfl⟩
  case object =>
    rintro view E' rfl hview
    obtain ⟨-, rfl⟩ := Verdict.query_eq_some.1 hview
    rw [asView_of_judged h hverdict.object E']
    rfl
  case demand =>
    intro E'
    rw [toView_of_judged h hverdict E']
    exact ⟨rfl, hverdict.agrees⟩
  case mismatch =>
    intro E' kind
    rw [toView_of_judged h hverdict E', hverdict.iff_eq]
    exact hverdict.demand_eq_mismatch
  case conversion =>
    exact fun c mode x E' w₀ hresolved => ⟨_, convert_of_judged h hverdict hresolved, hverdict.agrees⟩

end TypeProxy

/-! ## Two sample types -/

namespace Session

/-- A heap with two types. Object 6 has all flags, in the spelling with a sign, and the object flags of a
reference, with a bit above. Object 4 is a union, and a function stands for its object flags. -/
def viewHeap : Heap :=
  let data (name : String) (x : Value) : Property := ⟨.ofString name, .data x, true⟩
  let typed (id flags : Int32) (o : Object) : Object :=
    (o.define (data "id" (.int id))).define (data "flags" (.int flags))
  let full := sampleHeap.update ⟨6⟩ fun o =>
    (typed 8 (-1) o).define (data "objectFlags" (.bigint (2 ^ 32 + 4)))
  full.update ⟨4⟩ fun o =>
    (typed 9 (2 ^ 20) o).define ⟨.ofString "objectFlags", .accessor (some ⟨3⟩) none, true⟩

def viewStart : World := last 3 viewHeap [] (sampleSteps.take 1)

/-- The context is open, and resolves one of them. -/
def viewWorld (r : ObjectRef) : World :=
  (ContextId.resolve ⟨0⟩ .type (.object r) (Engine.ofFuel 2 stackSize) viewStart).2

def fullType : TypeProxy := ⟨⟨0⟩, 8, ⟨5⟩⟩

def unionType : TypeProxy := ⟨⟨0⟩, 9, ⟨5⟩⟩

theorem fullType_resolved : ContextId.resolve ⟨0⟩ .type (.object ⟨6⟩) (Engine.ofFuel 2 stackSize) viewStart =
    (.ok fullType, viewWorld ⟨6⟩) :=
  run_of_toOption (by decide +kernel)

theorem fullType_data :
    fullType.core.objectAt (viewWorld ⟨6⟩) = .ok ⟨6⟩ ∧ fullType.flagsAt (viewWorld ⟨6⟩) = .ok (-1) ∧
    fullType.objectFlagsAt (viewWorld ⟨6⟩) = .ok (2 ^ 32 + 4) ∧
    ((viewWorld ⟨6⟩).heap.datum? ⟨6⟩ "flags").isSome ∧
    ((viewWorld ⟨6⟩).heap.datum? ⟨6⟩ "objectFlags").isSome := by
  decide +kernel

theorem fullType_plain : fullType.HasPlainFlags (viewWorld ⟨6⟩) := by
  obtain ⟨hobject, -, -, hflags, hobjectFlags⟩ := fullType_data
  refine ⟨fun r hr => ?_, fun _ _ _ r hr => ?_⟩
  · rw [hobject] at hr
    cases hr
    exact hflags
  · rw [hobject] at hr
    cases hr
    exact hobjectFlags

theorem fullType_judged : fullType.Judged (viewWorld ⟨6⟩) .reference .seen := by
  obtain ⟨-, hn, hm, -⟩ := fullType_data
  exact .reference hn (by decide) hm (by decide)

theorem unionType_data :
    unionType.core.objectAt (viewWorld ⟨4⟩) = .ok ⟨4⟩ ∧ unionType.flagsAt (viewWorld ⟨4⟩) = .ok (2 ^ 20) ∧
    ((viewWorld ⟨4⟩).heap.datum? ⟨4⟩ "flags").isSome := by
  decide +kernel

theorem unionType_plain : unionType.HasPlainFlags (viewWorld ⟨4⟩) := by
  obtain ⟨hobject, hunion, hflags⟩ := unionType_data
  refine ⟨fun r hr => ?_, fun n hn hbit => ?_⟩
  · rw [hobject] at hr
    cases hr
    exact hflags
  · rw [hunion] at hn
    cases hn
    exact absurd hbit (by decide)

theorem unionType_judged :
    unionType.Judged (viewWorld ⟨4⟩) .reference (.lacking "type 9 with flags TypeFlags(UNION)") :=
  .other unionType_data.2.1 (by decide)

theorem views_follow_flags_sample :
    let E := Engine.ofFuel 2 stackSize
    fullType.HasPlainFlags (viewWorld ⟨6⟩) ∧
    (TypeProxy.asView fullType .reference E (viewWorld ⟨6⟩)).1 = .ok (some ⟨fullType⟩) ∧
    (TypeProxy.asView fullType .object E (viewWorld ⟨6⟩)).1 = .ok (some ⟨fullType⟩) ∧
    ContextId.resolve ⟨0⟩ .type (.object ⟨6⟩) E viewStart = (.ok fullType, viewWorld ⟨6⟩) ∧
    (∃ route, (Conv.view .reference).apply ⟨0⟩ .required (.object ⟨6⟩) E viewStart =
        (route.map .view, viewWorld ⟨6⟩) ∧
      TypeProxy.Agrees .reference (TypeProxy.asView fullType .reference E (viewWorld ⟨6⟩)).1 route) ∧
    unionType.HasPlainFlags (viewWorld ⟨4⟩) ∧
    unionType.flagsAt (viewWorld ⟨4⟩) = .ok (2 ^ 20) ∧ ¬HasBit (2 ^ 20) 19 ∧
    (∃ answer, (TypeProxy.asView unionType .reference E (viewWorld ⟨4⟩)).1 = .ok answer) ∧
    (TypeProxy.toView unionType .reference E (viewWorld ⟨4⟩)).1 =
      .error (.failed (.kindMismatch "TypeReference" "type 9 with flags TypeFlags(UNION)")) := by
  intro E
  have hfull := TypeProxy.views_follow_flags fullType_plain .reference E
  have hunion := TypeProxy.views_follow_flags unionType_plain .reference E
  have hview := (hfull.seen ⟨fullType⟩).2 ⟨rfl, fullType_judged⟩
  exact ⟨fullType_plain, hview, hfull.object _ E rfl hview, fullType_resolved,
    hfull.conversion _ _ _ _ _ fullType_resolved, unionType_plain, unionType_data.2.1, by decide,
    hunion.answered _ unionType_data.2.1 (by decide), (hunion.mismatch E _).2 unionType_judged⟩

end Session

end ProxySession
