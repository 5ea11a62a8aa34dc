import ProxySession.Proofs.Operations

/-!
# Conversions as progress

A conversion that owns its result can be made required, nullable or element by element, and what
reads or calls with it owns the same. A list of results owns what its elements own.
-/

namespace ProxySession

open Effect

variable {kept : List Reference} {α : Type} {given : α → Multiset Reference}

namespace Conversion

@[grind ←] theorem ofOption_foreignActs (expected : String) (f : Value → Option α) (v : Value) :
    (ofOption expected f v).ForeignActs := by
  unfold ofOption
  grind

@[grind ←] theorem toBool_foreignActs (v : Value) : (toBool v).ForeignActs := by
  unfold toBool
  grind

@[grind ←] theorem toInt32_foreignActs (v : Value) : (toInt32 v).ForeignActs := by
  unfold toInt32
  grind

@[grind ←] theorem toInt64_foreignActs (v : Value) : (toInt64 v).ForeignActs := by
  unfold toInt64
  grind

@[grind ←] theorem toNumber_foreignActs (v : Value) : (toNumber v).ForeignActs := by
  unfold toNumber
  grind

@[grind ←] theorem toObject_foreignActs (v : Value) : (toObject v).ForeignActs := by
  unfold toObject
  grind

@[grind ←] theorem toText_nonRetaining (c : ContextId) (v : Value) : (toText c v).NonRetaining := by
  unfold toText
  grind

@[grind ←] theorem toArray_foreignActs (v : Value) : (toArray v).ForeignActs := by
  unfold toArray
  grind

@[grind ←] theorem toCode_foreignActs (table : String) (find : Int32 → Option α) (v : Value) :
    (toCode table find v).ForeignActs := by
  unfold toCode
  grind

@[grind ←] theorem toScriptKind_foreignActs (v : Value) : (toScriptKind v).ForeignActs := by
  unfold toScriptKind
  grind

@[grind ←] theorem toSignatureKind_foreignActs (v : Value) : (toSignatureKind v).ForeignActs := by
  unfold toSignatureKind
  grind

@[grind ←] theorem toSyntaxKind_nonRetaining (c : ContextId) (v : Value) : (toSyntaxKind c v).NonRetaining := by
  unfold toSyntaxKind
  grind

/-! ## Absent values -/

theorem required_gives {convert : Conversion α} (hc : ∀ v, (convert v).Gives kept given)
    (v : Value) : (convert.required v).Gives kept given := by
  unfold required
  split
  · exact Gives.fail _
  · exact hc v

theorem nullable_gives {convert : Conversion α} (hc : ∀ v, (convert v).Gives kept given)
    (v : Value) : (convert.nullable v).Gives kept fun o => o.elim 0 given := by
  unfold nullable
  split
  · exact Gives.pure rfl
  · exact Gives.map (hc v) fun _ => rfl

@[grind ←] theorem required_neutral {convert : Conversion α}
    (hc : ∀ v, (convert v).Neutral kept) (v : Value) : (convert.required v).Neutral kept := by
  unfold required
  grind

@[grind ←] theorem nullable_neutral {convert : Conversion α}
    (hc : ∀ v, (convert v).Neutral kept) (v : Value) : (convert.nullable v).Neutral kept := by
  unfold nullable
  grind

@[grind ←] theorem required_nonRetaining {convert : Conversion α}
    (hc : ∀ v, (convert v).NonRetaining) (v : Value) : (convert.required v).NonRetaining := by
  unfold required
  grind

/-! ## Arrays -/

/-- What a list of results owns. -/
def givenAll (given : α → Multiset Reference) (as : List α) : Multiset Reference :=
  (as.map given).sum

theorem givenAll_cons (given : α → Multiset Reference) (a : α) (as : List α) :
    givenAll given (a :: as) = given a + givenAll given as := by
  rw [givenAll, List.map_cons, List.sum_cons, givenAll]

theorem elements_gives {c : ContextId} {drop : α → World → World} {convert : Conversion α}
    (hc : ∀ v, (convert v).Gives kept given)
    (hd : ∀ a w F, Progress (given a + F) w F (drop a w)) (r : ObjectRef) (count i : Nat) :
    (elements c drop convert r count i).Gives kept (givenAll given) := by
  induction count generalizing i with
  | zero => exact Gives.pure rfl
  | succ count ih =>
    refine Gives.bind_onStop (Gives.located _ ?_) (fun _ => ih (i + 1)) hd fun a rest => ?_
    · exact Gives.bind (c.element_nonRetaining r i).neutral fun v => required_gives hc v
    · rw [← givenAll_cons]
      exact Transfers.pure (a :: rest)

theorem listOf_gives {c : ContextId} {drop : α → World → World} {convert : Conversion α}
    (hc : ∀ v, (convert v).Gives kept given)
    (hd : ∀ a w F, Progress (given a + F) w F (drop a w)) (v : Value) :
    (listOf c drop convert v).Gives kept (givenAll given) :=
  Gives.bind (toArray_foreignActs v).neutral fun _ => elements_gives hc hd _ _ 0

@[grind ←] theorem plainList_neutral {c : ContextId} {convert : Conversion α}
    (hc : ∀ v, (convert v).Neutral kept) (v : Value) : (plainList c convert v).Neutral kept := by
  have hl : (plainList c convert v).Gives kept (givenAll fun _ => 0) :=
    listOf_gives (fun v => (hc v).gives fun _ => rfl) (fun _ _ F => by rw [zero_add]; exact .refl) v
  refine hl.neutral fun as => ?_
  induction as with
  | nil => rfl
  | cons a rest ih => rw [givenAll_cons, ih, add_zero]

/-! ## Node lists -/

/-- The caller owns the one clone of a new list. -/
theorem toNodeList_gives {c : ContextId} (hc : .context c ∈ kept) (v : Value) :
    (toNodeList c v).Gives kept fun l => {.list l} := by
  refine Gives.bind (toArray_foreignActs v).neutral fun (_, length) => ?_
  intro w E _ F hF
  cases ho : (w.context c).custodian.closed with
  | true =>
    simp only [bind_eq, c.retain_of_closed v E ho]
    exact Progress.refl
  | false =>
    obtain ⟨w', hr, hw⟩ := c.retain_of_open v E ho
    simp only [bind_eq, hr]
    have hl : w'.lists = w.lists := by
      rw [hw.holdings]
      rfl
    have hb : w.Turns { w' with
        lists := w'.lists.push
          { context := c, handle := w.nextHandle c, length, clones := 1, origin := v } }
        (w.toHoldings.convert c v length) := by
      refine ⟨⟨?_, hw.history⟩, hw.tacit.trans (.holdings _ _)⟩
      rw [Holdings.convert, ← hw.holdings, ← hl]
    have hm := Progress.change (.convert v length (hF _ hc) ho) hb (.convert c v length _)
      (.convert c v length _)
    rw [← Multiset.singleton_add, ← hl] at hm
    rw [zero_add]
    exact hm

end Conversion

namespace ContextId

variable (c : ContextId)

/-! ## Converted reads and calls -/

theorem read_gives {convert : Conversion α} (hc : ∀ v, (convert v).Gives kept given)
    (r : ObjectRef) (name : String) : (c.read r name convert).Gives kept given :=
  Gives.located name (Gives.bind (c.property_nonRetaining r name).neutral fun v =>
    Conversion.required_gives hc v)

theorem readNullable_gives {convert : Conversion α} (hc : ∀ v, (convert v).Gives kept given)
    (r : ObjectRef) (name : String) :
    (c.readNullable r name convert).Gives kept fun o => o.elim 0 given :=
  Gives.located name (Gives.bind (c.property_nonRetaining r name).neutral fun v =>
    Conversion.nullable_gives hc v)

theorem call_gives {convert : Conversion α} (hc : ∀ v, (convert v).Gives kept given)
    (r : ObjectRef) (method : String) (arguments : List Value) :
    (c.call r method arguments convert).Gives kept given :=
  Gives.located method (Gives.bind (c.callMethod_nonRetaining r method arguments).neutral fun v =>
    Conversion.required_gives hc v)

theorem callNullable_gives {convert : Conversion α} (hc : ∀ v, (convert v).Gives kept given)
    (r : ObjectRef) (method : String) (arguments : List Value) :
    (c.callNullable r method arguments convert).Gives kept fun o => o.elim 0 given :=
  Gives.located method (Gives.bind (c.callMethod_nonRetaining r method arguments).neutral fun v =>
    Conversion.nullable_gives hc v)

@[grind ←] theorem read_neutral {convert : Conversion α} (hc : ∀ v, (convert v).Neutral kept)
    (r : ObjectRef) (name : String) : (c.read r name convert).Neutral kept := by
  unfold read
  grind

@[grind ←] theorem readNullable_neutral {convert : Conversion α}
    (hc : ∀ v, (convert v).Neutral kept) (r : ObjectRef) (name : String) :
    (c.readNullable r name convert).Neutral kept := by
  unfold readNullable
  grind

@[grind ←] theorem read_nonRetaining {convert : Conversion α} (hc : ∀ v, (convert v).NonRetaining)
    (r : ObjectRef) (name : String) : (c.read r name convert).NonRetaining := by
  unfold read
  grind

@[grind ←] theorem call_neutral {convert : Conversion α} (hc : ∀ v, (convert v).Neutral kept)
    (r : ObjectRef) (method : String) (arguments : List Value) :
    (c.call r method arguments convert).Neutral kept := by
  unfold call
  grind

@[grind ←] theorem callNullable_neutral {convert : Conversion α}
    (hc : ∀ v, (convert v).Neutral kept) (r : ObjectRef) (method : String)
    (arguments : List Value) : (c.callNullable r method arguments convert).Neutral kept := by
  unfold callNullable
  grind

end ContextId

end ProxySession
