import ProxySession.Proofs.NumberReadings
import ProxySession.Proofs.Visits

/-!
# Nested lists

A conversion of lists of lists, down to a base conversion, works position by position. A position is a path
of indices, and the positions are visited in lexicographic order: each array before its elements, the
elements from the first on. The conversion ends with the first position that offends, or else with a result
of the same shape.
-/

namespace ProxySession

open Effect

/-! ## Positions -/

namespace Heap

variable {h : Heap} {v x : Value} {i d : Nat}

/-- What a read of a property gives, unless a getter computes it. -/
def data? (h : Heap) (r : ObjectRef) (key : PropertyKey) : Option Value :=
  match h.lookup r key with
  | none | some (.accessor none _) => some .undefined
  | some (.data v) | some (.constant v) => some v
  | some (.accessor (some _) _) => none

/-- An element of an array; one that is not there is undefined. -/
def element? (h : Heap) (v : Value) (i : Nat) : Option Value :=
  match v with
  | .object r => (h.arrayLength? v).bind fun length =>
    if i < length then h.data? r (.ofIndex i) else none
  | _ => none

/-- The value at the end of a path. -/
def at? (h : Heap) (v : Value) : List Nat → Option Value
  | [] => some v
  | i :: path => (h.element? v i).bind fun x => h.at? x path

/-- The arrays down to a depth hold data: no getter computes an element. -/
def isData (h : Heap) : Nat → Value → Bool
  | 0, _ => true
  | depth + 1, v => (List.range ((h.arrayLength? v).getD 0)).all fun i =>
    (h.element? v i).any fun x => h.isData depth x

theorem isData_element {length : Nat} (hd : h.isData (d + 1) v = true)
    (hlength : h.arrayLength? v = some length) (hi : i < length) :
    ∃ x, h.element? v i = some x ∧ h.isData d x = true := by
  rw [isData, hlength] at hd
  have hx := List.all_eq_true.1 hd i (List.mem_range.2 hi)
  cases he : h.element? v i with
  | none =>
    rw [he] at hx
    cases hx
  | some x =>
    rw [he] at hx
    exact ⟨x, rfl, hx⟩

theorem element?_eq_some (hx : h.element? v i = some x) :
    ∃ r length, v = .object r ∧ h.arrayLength? v = some length ∧ i < length ∧
      h.data? r (.ofIndex i) = some x := by
  cases v with
  | object r =>
    obtain ⟨length, hlength, hdata⟩ := Option.bind_eq_some_iff.1 hx
    obtain ⟨hi, hdata⟩ := Option.ite_none_right_eq_some.1 hdata
    exact ⟨r, length, rfl, hlength, hi, hdata⟩
  | _ => cases hx

theorem arrayLength?_eq_some {length : Nat} (hv : h.arrayLength? v = some length) :
    ∃ r, v = .object r := by
  cases v with
  | object r => exact ⟨r, rfl⟩
  | _ => cases hv

end Heap

namespace SessionError

/-- The error at the end of a path of indices. -/
def within (path : List Nat) (e : SessionError) : SessionError :=
  path.foldr (fun i inner => .located (Conversion.elementSite i) inner) e

theorem sites_within (path : List Nat) (e : SessionError) :
    (e.within path).sites = path.map Conversion.elementSite ++ e.sites := by
  induction path with
  | nil => rfl
  | cons i path ih => exact congrArg (Conversion.elementSite i :: ·) ih

theorem root_within (path : List Nat) (e : SessionError) : (e.within path).root = e.root := by
  induction path with
  | nil => rfl
  | cons i path ih => exact ih

end SessionError

/-! ## Base conversions -/

/-- A conversion that lists can be nested over. -/
inductive Leaf where
  | text | bool | int32 | int64 | number | syntaxKind

namespace Leaf

def conv : Leaf → Conv
  | text => .text
  | bool => .bool
  | int32 => .int32
  | int64 => .int64
  | number => .number
  | syntaxKind => .syntaxKind

variable {kinds : KindTable} {h : Heap} {leaf : Leaf} {v x : Value} {e : SessionError} {d : Nat}
  {item : Item}

/-- What a base conversion makes of a value that is present. -/
def outcome (kinds : KindTable) (h : Heap) : Leaf → Value → Except SessionError Item
  | text, .text t => (t.decode.map Item.text).mapError .brokenText
  | text, v => .error (.shapeMismatch "string" (h.typeName v))
  | bool, .bool b => .ok (.bool b)
  | bool, v => .error (.shapeMismatch "boolean" (h.typeName v))
  | int32, v =>
    match v.exactInt32? with
    | some n => .ok (.int n.toInt)
    | none => .error (.shapeMismatch "32-bit integer" (h.typeName v))
  | int64, v =>
    match v.int64? with
    | some n => .ok (.int n.toInt)
    | none => .error (.shapeMismatch "64-bit integer" (h.typeName v))
  | number, v =>
    match v.number? with
    | some x => .ok (.number x)
    | none => .error (.shapeMismatch "number" (h.typeName v))
  | syntaxKind, v =>
    match v.exactInt32? with
    | some code =>
      match kinds.kind? code with
      | some kind => .ok (.syntaxKind kind)
      | none => .error (.unknownCode "SyntaxKind" code.toInt)
    | none => .error (.shapeMismatch "32-bit integer" (h.typeName v))

/-- The ways in which an outcome comes about: a report, or an error that has no site. -/
theorem outcome_cases (leaf : Leaf) (kinds : KindTable) (h : Heap) (v : Value) :
    (∃ shown, leaf.outcome kinds h v = .ok (.report shown)) ∨
    ∃ e, leaf.outcome kinds h v = .error e ∧ e.sites = [] ∧ e.root = e := by
  cases leaf with
  | text =>
    cases v with
    | text t =>
      rw [outcome]
      cases t.decode with
      | ok s => exact .inl ⟨_, rfl⟩
      | error offset => exact .inr ⟨_, rfl, rfl, rfl⟩
    | _ => exact .inr ⟨_, rfl, rfl, rfl⟩
  | bool =>
    cases v with
    | bool b => exact .inl ⟨_, rfl⟩
    | _ => exact .inr ⟨_, rfl, rfl, rfl⟩
  | int32 =>
    rw [outcome]
    cases v.exactInt32? with
    | some n => exact .inl ⟨_, rfl⟩
    | none => exact .inr ⟨_, rfl, rfl, rfl⟩
  | int64 =>
    rw [outcome]
    cases v.int64? with
    | some n => exact .inl ⟨_, rfl⟩
    | none => exact .inr ⟨_, rfl, rfl, rfl⟩
  | number =>
    rw [outcome]
    cases v.number? with
    | some x => exact .inl ⟨_, rfl⟩
    | none => exact .inr ⟨_, rfl, rfl, rfl⟩
  | syntaxKind =>
    rw [outcome]
    cases v.exactInt32? with
    | none => exact .inr ⟨_, rfl, rfl, rfl⟩
    | some code =>
      simp only
      cases kinds.kind? code with
      | some kind => exact .inl ⟨_, rfl⟩
      | none => exact .inr ⟨_, rfl, rfl, rfl⟩

/-- A base conversion has its outcome. If it succeeds, the world stays as it is. -/
theorem convert_run (leaf : Leaf) (c : ContextId) (v : Value) (E : Engine) (w : World) :
    ∃ w', leaf.conv.convert c v E w =
        ((leaf.outcome (w.context c).kinds w.heap v).mapError .failed, w') ∧
      ∀ item, leaf.outcome (w.context c).kinds w.heap v = .ok item → w' = w := by
  cases leaf with
  | text =>
    cases v with
    | text t =>
      rw [outcome]
      cases ht : t.decode with
      | ok s =>
        refine ⟨w, (map_eq _ _ E w).trans ?_, fun _ _ => rfl⟩
        rw [Conversion.toText, ht]
        rfl
      | error offset =>
        refine ⟨w.settled c, (map_eq _ _ E w).trans ?_, nofun⟩
        rw [Conversion.toText, ht]
        rfl
    | _ => exact ⟨w, rfl, nofun⟩
  | bool =>
    cases v with
    | bool b => exact ⟨w, rfl, fun _ _ => rfl⟩
    | _ => exact ⟨w, rfl, nofun⟩
  | int32 =>
    refine ⟨w, (map_eq _ _ E w).trans ?_, fun _ _ => rfl⟩
    rw [Conversion.toInt32, Conversion.ofOption_run, outcome]
    cases v.exactInt32? <;> rfl
  | int64 =>
    refine ⟨w, (map_eq _ _ E w).trans ?_, fun _ _ => rfl⟩
    rw [Conversion.toInt64, Conversion.ofOption_run, outcome]
    cases v.int64? <;> rfl
  | number =>
    refine ⟨w, (map_eq _ _ E w).trans ?_, fun _ _ => rfl⟩
    rw [Conversion.toNumber, Conversion.ofOption_run, outcome]
    cases v.number? <;> rfl
  | syntaxKind =>
    refine ⟨w, (map_eq _ _ E w).trans ?_, fun _ _ => rfl⟩
    rw [Conversion.toSyntaxKind, world_bind, Conversion.toCode, bind_eq, Conversion.toInt32,
      Conversion.ofOption_run, outcome]
    cases v.exactInt32? with
    | none => rfl
    | some code =>
      simp only
      cases (w.context c).kinds.kind? code <;> rfl

/-! ## Offences -/

/-- What is wrong with a present value that stands a number of levels above the leaves. -/
def defect? (kinds : KindTable) (h : Heap) (leaf : Leaf) : Nat → Value → Option SessionError
  | 0, v =>
    match leaf.outcome kinds h v with
    | .ok _ => none
    | .error e => some e
  | _ + 1, v =>
    match h.arrayLength? v with
    | some _ => none
    | none => some (.shapeMismatch "array" (h.typeName v))

/-- What is wrong with a value, which may be absent. -/
def offence? (kinds : KindTable) (h : Heap) (leaf : Leaf) (levels : Nat) (v : Value) :
    Option SessionError :=
  if v.isAbsent then some .missingValue else leaf.defect? kinds h levels v

/-- No position of the value, down to the depth, offends. -/
def Fits (kinds : KindTable) (h : Heap) (leaf : Leaf) (depth : Nat) (v : Value) : Prop :=
  ∀ path x, path.length ≤ depth → h.at? v path = some x →
    leaf.offence? kinds h (depth - path.length) x = none

/-- The first position that offends, in lexicographic order. -/
structure FirstOffence (kinds : KindTable) (h : Heap) (leaf : Leaf) (depth : Nat) (v : Value)
    (path : List Nat) (x : Value) (e : SessionError) : Prop where
  within : path.length ≤ depth
  position : h.at? v path = some x
  offends : leaf.offence? kinds h (depth - path.length) x = some e
  first : ∀ path' y, path' < path → path'.length ≤ depth → h.at? v path' = some y →
    leaf.offence? kinds h (depth - path'.length) y = none

/-- A result has the shape of a value: a list for each array, with as many elements, and for each leaf its
outcome. -/
def Mirrors (kinds : KindTable) (h : Heap) (leaf : Leaf) : Nat → Value → Item → Prop
  | 0, v, item => leaf.outcome kinds h v = .ok item
  | depth + 1, v, item => ∃ items, item = .list items ∧ h.arrayLength? v = some items.length ∧
      ∀ i (hi : i < items.length), ∃ x, h.element? v i = some x ∧
        leaf.Mirrors kinds h depth x items[i]

/-- Nothing fits where a position offends. -/
theorem FirstOffence.not_fits {path : List Nat} (hf : leaf.FirstOffence kinds h d v path x e) :
    ¬leaf.Fits kinds h d v := fun hfits => by
  have hnone := hfits path x hf.within hf.position
  rw [hf.offends] at hnone
  cases hnone

theorem defect?_zero_eq_none (ho : leaf.defect? kinds h 0 v = none) :
    ∃ shown, leaf.outcome kinds h v = .ok (.report shown) := by
  rcases leaf.outcome_cases kinds h v with hok | ⟨e, he, _⟩
  · exact hok
  · rw [defect?, he] at ho
    cases ho

theorem defect?_succ_eq_none (ho : leaf.defect? kinds h (d + 1) v = none) :
    ∃ length, h.arrayLength? v = some length := by
  rw [defect?] at ho
  split at ho
  · exact ⟨_, ‹_›⟩
  · cases ho

theorem defect?_plain {levels : Nat} (ho : leaf.defect? kinds h levels v = some e) :
    e.sites = [] ∧ e.root = e := by
  cases levels with
  | zero =>
    rcases leaf.outcome_cases kinds h v with ⟨shown, hok⟩ | ⟨e', he, hplain⟩
    · rw [defect?, hok] at ho
      cases ho
    · rw [defect?, he] at ho
      cases ho
      exact hplain
  | succ levels =>
    rw [defect?] at ho
    split at ho
    · cases ho
    · cases ho
      exact ⟨rfl, rfl⟩

/-- An offence by itself has no site. -/
theorem offence?_plain {levels : Nat} (ho : leaf.offence? kinds h levels v = some e) :
    e.sites = [] ∧ e.root = e := by
  rw [offence?] at ho
  split at ho
  · cases ho
    exact ⟨rfl, rfl⟩
  · exact defect?_plain ho

theorem offence?_eq_none {levels : Nat} (ho : leaf.offence? kinds h levels v = none) :
    v.isAbsent = false ∧ leaf.defect? kinds h levels v = none := by
  rw [offence?] at ho
  split at ho
  · cases ho
  · exact ⟨Bool.eq_false_iff.2 ‹_›, ho⟩

theorem fits_zero (ho : leaf.offence? kinds h 0 v = none) : leaf.Fits kinds h 0 v := by
  intro path x hlength hx
  obtain rfl := List.length_eq_zero_iff.1 (Nat.le_zero.1 hlength)
  obtain rfl := Option.some_inj.1 hx
  exact ho

/-- An array fits if its elements do. -/
theorem fits_succ (ho : leaf.offence? kinds h (d + 1) v = none)
    (hx : ∀ i x, h.element? v i = some x → leaf.Fits kinds h d x) : leaf.Fits kinds h (d + 1) v := by
  intro path y hlength hy
  cases path with
  | nil =>
    obtain rfl := Option.some_inj.1 hy
    exact ho
  | cons i path =>
    obtain ⟨x, hi, hy⟩ := Option.bind_eq_some_iff.1 hy
    have hlength : path.length ≤ d := by simpa using hlength
    have hlevels : d + 1 - (i :: path).length = d - path.length := by simp
    rw [hlevels]
    exact hx i x hi path y hlength hy

theorem firstOffence_nil (ho : leaf.offence? kinds h d v = some e) :
    leaf.FirstOffence kinds h d v [] v e where
  within := Nat.zero_le d
  position := rfl
  offends := ho
  first _ _ hlt := absurd hlt (List.not_lt_nil _)

/-- The first offence within the first element that does not fit is the first one of the array. -/
theorem firstOffence_cons {i : Nat} {y : Value} {path : List Nat}
    (ho : leaf.offence? kinds h (d + 1) v = none) (hx : h.element? v i = some x)
    (hbefore : ∀ j z, j < i → h.element? v j = some z → leaf.Fits kinds h d z)
    (hf : leaf.FirstOffence kinds h d x path y e) :
    leaf.FirstOffence kinds h (d + 1) v (i :: path) y e where
  within := by simpa using hf.within
  position := Option.bind_eq_some_iff.2 ⟨x, hx, hf.position⟩
  offends := by
    have hlevels : d + 1 - (i :: path).length = d - path.length := by simp
    rw [hlevels]
    exact hf.offends
  first path' z hlt hlength hz := by
    cases path' with
    | nil =>
      obtain rfl := Option.some_inj.1 hz
      exact ho
    | cons j path' =>
      obtain ⟨x', hj, hz⟩ := Option.bind_eq_some_iff.1 hz
      have hlength : path'.length ≤ d := by simpa using hlength
      have hlevels : d + 1 - (j :: path').length = d - path'.length := by simp
      rw [hlevels]
      rcases List.cons_lt_cons_iff.1 hlt with hindex | ⟨rfl, hrest⟩
      · exact hbefore j x' hindex hj path' z hlength hz
      · obtain rfl := Option.some_inj.1 (hx.symm.trans hj)
        exact hf.first path' z hrest hlength hz

end Leaf

/-! ## Reads of data -/

theorem ContextId.element_of_data {c : ContextId} {E : Engine} {w : World} {r : ObjectRef} {i : Nat}
    {x : Value} (hx : w.heap.data? r (.ofIndex i) = some x) : c.element r i E w = (.ok x, w) := by
  refine reading_of_ok ?_
  rw [Heap.data?] at hx
  rw [Eval.getProperty, Eval.read, world_bind]
  cases hl : w.heap.lookup r (.ofIndex i) with
  | none =>
    have hp : w.heap.provided (.object r) (.ofIndex i) = none := hl
    rw [hl] at hx
    cases hx
    rw [hp]
    rfl
  | some content =>
    have hp : w.heap.provided (.object r) (.ofIndex i) = some content := hl
    rw [hl] at hx
    rw [hp]
    cases content with
    | data v | constant v =>
      cases hx
      rfl
    | accessor get set =>
      cases get with
      | none =>
        cases hx
        rfl
      | some getter => cases hx

/-! ## Conversions of nested lists -/

namespace Conv

variable {c : ContextId} {E : Engine} {w w' : World} {leaf : Leaf} {v x : Value} {d : Nat}

/-- Lists of lists and so on, over a base conversion. -/
def nested (leaf : Leaf) : Nat → Conv
  | 0 => leaf.conv
  | depth + 1 => .list (nested leaf depth)

/-- What a nested conversion gives keeps nothing alive. -/
theorem nested_bare {item : Item} (hitem : (nested leaf d).convert c v E w = (.ok item, w')) :
    item.references = [] := by
  induction d generalizing v E w w' item with
  | zero =>
    obtain ⟨_, hrun, _⟩ := leaf.convert_run c v E w
    have hresult := congrArg Prod.fst (hrun.symm.trans hitem)
    rcases leaf.outcome_cases (w.context c).kinds w.heap v with ⟨shown, hok⟩ | ⟨e, he, _⟩
    · rw [hok] at hresult
      cases hresult
      rfl
    · rw [he] at hresult
      cases hresult
  | succ d ih =>
    have hstep (r : ObjectRef) (i : Nat) (E : Engine) (w : World) (item : Item) (w' : World)
        (ha : Conversion.listStep c ((nested leaf d).convert c) r i E w = (.ok item, w')) :
        item.references = [] := by
      obtain ⟨_, _, _, _, hconvert⟩ := Conversion.listStep_ok ha
      exact ih hconvert
    obtain ⟨items, hlist, rfl⟩ := map_ok hitem
    obtain ⟨⟨r, length⟩, w₁, _, helements⟩ := bind_ok hlist
    replace helements : Conversion.elements c World.drop ((nested leaf d).convert c) r length 0 E w₁ =
      (.ok items, w') := helements
    have hv : Visits (Conversion.listStep c ((nested leaf d).convert c) r) E w₁ length
        (Conversion.elements c World.drop ((nested leaf d).convert c) r length 0 E w₁) :=
      Conversion.elements_visits
        (fun i E w item w' ha => World.drop_of_references (hstep r i E w item w' ha)) E w₁ length
    rw [helements] at hv
    cases hv with
    | done hv _ =>
      rw [Item.references, Item.allReferences_eq_flatMap, List.flatMap_eq_nil_iff]
      intro item hitem
      obtain ⟨i, hi, rfl⟩ := List.mem_iff_getElem.1 hitem
      obtain ⟨w₀, w₂, _, hat, _⟩ := hv.at_step hi
      exact hstep r i E w₀ _ w₂ hat

/-- A value that offends by itself is an error by itself. -/
theorem nested_of_offence {e : SessionError}
    (ho : leaf.offence? (w.context c).kinds w.heap d v = some e) :
    ∃ w', (nested leaf d).apply c .required v E w = (.error (.failed e), w') := by
  rw [Leaf.offence?] at ho
  change ∃ w', ((nested leaf d).convert c).required v E w = _
  cases hv : v.isAbsent with
  | true =>
    rw [if_pos hv] at ho
    cases ho
    rw [Conversion.required, if_pos hv]
    exact ⟨w, rfl⟩
  | false =>
    rw [if_neg (Bool.eq_false_iff.1 hv)] at ho
    rw [Conversion.required_of_present hv]
    cases d with
    | zero =>
      obtain ⟨w', hrun, _⟩ := leaf.convert_run c v E w
      refine ⟨w', hrun.trans ?_⟩
      rw [Leaf.defect?] at ho
      split at ho
      · cases ho
      · next e' he =>
        cases ho
        rw [he]
        rfl
    | succ d =>
      refine ⟨w, (map_eq _ _ E w).trans ?_⟩
      rw [Leaf.defect?] at ho
      split at ho
      · cases ho
      · next hnone =>
        cases ho
        rw [Conversion.listOf, bind_of_error (Conversion.toArray_of_none hnone)]
        rfl

/-- A step of the conversion of a data array converts the element. -/
theorem listStep_of_data {conv : Conv} {r : ObjectRef} {i : Nat} (hx : w.heap.data? r (.ofIndex i) = some x) :
    Conversion.listStep c (conv.convert c) r i E w =
      ((conv.apply c .required x E w).1.mapError (Stop.map (.located (Conversion.elementSite i))),
        (conv.apply c .required x E w).2) := by
  rw [Conversion.listStep, located_eq, bind_of_ok (c.element_of_data hx)]
  rfl

theorem drop_listStep {r : ObjectRef} (i : Nat) (E : Engine) (w : World) (item : Item) (w' : World)
    (h : Conversion.listStep c ((nested leaf d).convert c) r i E w = (.ok item, w')) :
    World.drop item = id := by
  obtain ⟨_, _, _, _, hconvert⟩ := Conversion.listStep_ok h
  exact World.drop_of_references (nested_bare hconvert)

/-- A conversion of a data array goes through the elements. -/
theorem nested_visits {r : ObjectRef} {length : Nat}
    (hv : w.heap.arrayLength? (.object r) = some length) :
    ∃ result, Visits (Conversion.listStep c ((nested leaf d).convert c) r) E w length result ∧
      (nested leaf (d + 1)).apply c .required (.object r) E w = (result.1.map .list, result.2) := by
  refine ⟨Conversion.elements c World.drop ((nested leaf d).convert c) r length 0 E w,
    Conversion.elements_visits drop_listStep E w length, ?_⟩
  rw [apply_of_present rfl]
  refine (map_eq _ _ E w).trans ?_
  rw [Conversion.listOf, bind_of_ok (Conversion.toArray_of_array hv)]

/-- How the conversion of nested lists ends: everything fits, the result mirrors the value and the world
stays as it is, or the first offence is the error. -/
inductive NestedEnd (leaf : Leaf) (c : ContextId) (w : World) (d : Nat) (v : Value) :
    Except (Stop SessionError) Item × World → Prop
  | fits {item : Item} : leaf.Fits (w.context c).kinds w.heap d v →
      leaf.Mirrors (w.context c).kinds w.heap d v item → NestedEnd leaf c w d v (.ok item, w)
  | offends {path : List Nat} {x : Value} {e : SessionError} {w' : World} :
      leaf.FirstOffence (w.context c).kinds w.heap d v path x e →
      NestedEnd leaf c w d v (.error (.failed (e.within path)), w')

section Elements

variable {r : ObjectRef} {length i : Nat}
  (hends : ∀ x, w.heap.isData d x = true →
    NestedEnd leaf c w d x ((nested leaf d).apply c .required x E w))
  (hdata : w.heap.isData (d + 1) (.object r) = true)
  (hlength : w.heap.arrayLength? (.object r) = some length)

include hends hdata hlength

/-- A step converts its element by itself, and what it stops with is one site further in. -/
theorem nested_step (hi : i < length) : ∃ x result, w.heap.element? (.object r) i = some x ∧
    NestedEnd leaf c w d x result ∧
    Conversion.listStep c ((nested leaf d).convert c) r i E w =
      (result.1.mapError (Stop.map (.located (Conversion.elementSite i))), result.2) := by
  obtain ⟨x, hx, hdatum⟩ := Heap.isData_element hdata hlength hi
  obtain ⟨_, _, hr, _, _, hread⟩ := Heap.element?_eq_some hx
  cases hr
  exact ⟨x, _, hx, hends x hdatum, listStep_of_data hread⟩

/-- As long as the elements convert, they fit and the world stays as it is. -/
theorem nested_visited {items : List Item} {w₁ : World}
    (hv : Visited (Conversion.listStep c ((nested leaf d).convert c) r) E w items w₁)
    (hle : items.length ≤ length) : w₁ = w ∧ ∀ i (hi : i < items.length),
      ∃ x, w.heap.element? (.object r) i = some x ∧ leaf.Fits (w.context c).kinds w.heap d x ∧
        leaf.Mirrors (w.context c).kinds w.heap d x items[i] := by
  refine hv.stays (P := fun i item => ∃ x, w.heap.element? (.object r) i = some x ∧
    leaf.Fits (w.context c).kinds w.heap d x ∧ leaf.Mirrors (w.context c).kinds w.heap d x item)
    hle fun i item w₂ hi hrun => ?_
  obtain ⟨x, result, hx, hend, hstep⟩ := nested_step hends hdata hlength hi
  rw [hstep] at hrun
  cases hend with
  | fits hfits hmirrors =>
    cases hrun
    exact ⟨rfl, x, hx, hfits, hmirrors⟩
  | offends _ => cases hrun

/-- The elements decide how the conversion of an array ends. -/
theorem nested_array (ho : leaf.offence? (w.context c).kinds w.heap (d + 1) (.object r) = none) :
    NestedEnd leaf c w (d + 1) (.object r) ((nested leaf (d + 1)).apply c .required (.object r) E w) := by
  obtain ⟨run, hvisits, hrun⟩ := @nested_visits c E w leaf d r length hlength
  rw [hrun]
  cases hvisits with
  | @done items w₁ hv hn =>
    obtain ⟨rfl, hitems⟩ := nested_visited hends hdata hlength hv hn.le
    refine .fits (Leaf.fits_succ ho fun i x hx => ?_) ⟨items, rfl, hlength.trans (by rw [hn]), ?_⟩
    · obtain ⟨_, _, _, hlength', hi, _⟩ := Heap.element?_eq_some hx
      cases hlength.symm.trans hlength'
      obtain ⟨x', hx', hfits, _⟩ := hitems i (hi.trans_eq hn.symm)
      cases hx.symm.trans hx'
      exact hfits
    · intro i hi
      obtain ⟨x, hx, _, hmirrors⟩ := hitems i hi
      exact ⟨x, hx, hmirrors⟩
  | @stopped items w₁ s w₂ hv hlt hstop =>
    obtain ⟨rfl, hitems⟩ := nested_visited hends hdata hlength hv hlt.le
    obtain ⟨x, result, hx, hend, hstep⟩ := nested_step hends hdata hlength hlt
    rw [hstep] at hstop
    cases hend with
    | fits _ _ => cases hstop
    | offends hfirst =>
      cases hstop
      refine .offends (Leaf.firstOffence_cons ho hx (fun j z hj hz => ?_) hfirst)
      obtain ⟨z', hz', hfits, _⟩ := hitems j hj
      cases hz.symm.trans hz'
      exact hfits

end Elements

theorem nested_ends (c : ContextId) (E : Engine) (w : World) (leaf : Leaf) (d : Nat) (v : Value)
    (hdata : w.heap.isData d v = true) :
    NestedEnd leaf c w d v ((nested leaf d).apply c .required v E w) := by
  induction d generalizing v with
  | zero =>
    cases ho : leaf.offence? (w.context c).kinds w.heap 0 v with
    | some e =>
      obtain ⟨w', hrun⟩ := nested_of_offence ho
      rw [hrun]
      exact .offends (Leaf.firstOffence_nil ho)
    | none =>
      obtain ⟨hpresent, hdefect⟩ := Leaf.offence?_eq_none ho
      obtain ⟨shown, hok⟩ := Leaf.defect?_zero_eq_none hdefect
      obtain ⟨w', hrun, hsame⟩ := leaf.convert_run c v E w
      obtain rfl := hsame _ hok
      rw [apply_of_present hpresent, nested, hrun, hok]
      exact .fits (Leaf.fits_zero ho) hok
  | succ d ih =>
    cases ho : leaf.offence? (w.context c).kinds w.heap (d + 1) v with
    | some e =>
      obtain ⟨w', hrun⟩ := nested_of_offence ho
      rw [hrun]
      exact .offends (Leaf.firstOffence_nil ho)
    | none =>
      obtain ⟨_, hdefect⟩ := Leaf.offence?_eq_none ho
      obtain ⟨length, hlength⟩ := Leaf.defect?_succ_eq_none hdefect
      obtain ⟨r, rfl⟩ := Heap.arrayLength?_eq_some hlength
      exact nested_array ih hdata hlength ho

/-- Nested lists over a base conversion convert position by position. The conversion succeeds just if every
position fits, and the result then has the shape of the value. Otherwise its sites are the path to the first
position that offends, and its root is the error which that position alone gives. -/
theorem nested_lists_convert (c : ContextId) (E : Engine) (w : World) (leaf : Leaf) (d : Nat) (v : Value)
    (hdata : w.heap.isData d v = true) :
    let kinds := (w.context c).kinds
    let run := (nested leaf d).apply c .required v E w
    ((∃ item, run.1 = .ok item) ↔ leaf.Fits kinds w.heap d v) ∧
    (∀ item, run.1 = .ok item → leaf.Mirrors kinds w.heap d v item ∧ run.2 = w) ∧
    (¬leaf.Fits kinds w.heap d v → ∃ path x e failure,
      leaf.FirstOffence kinds w.heap d v path x e ∧
      run.1 = .error (.failed failure) ∧
      failure.sites = path.map Conversion.elementSite ∧ failure.root = e ∧
      ((nested leaf (d - path.length)).apply c .required x E w).1 = .error (.failed e)) ∧
    ∀ x, x.isAbsent = false →
      (leaf.conv.apply c .required x E w).1 = (leaf.outcome kinds w.heap x).mapError .failed := by
  intro kinds run
  have hleaf (x : Value) (hx : x.isAbsent = false) :
      (leaf.conv.apply c .required x E w).1 = (leaf.outcome kinds w.heap x).mapError .failed := by
    obtain ⟨w', hrun, _⟩ := leaf.convert_run c x E w
    rw [apply_of_present hx, hrun]
  have hend : NestedEnd leaf c w d v run := nested_ends c E w leaf d v hdata
  clear_value run
  cases hend with
  | fits hfits hmirrors =>
    refine ⟨⟨fun _ => hfits, fun _ => ⟨_, rfl⟩⟩, fun item hitem => ?_, fun h => absurd hfits h, hleaf⟩
    cases hitem
    exact ⟨hmirrors, rfl⟩
  | @offends path x e w' hfirst =>
    refine ⟨⟨nofun, fun h => absurd h hfirst.not_fits⟩, nofun, fun _ => ?_, hleaf⟩
    obtain ⟨hsites, hroot⟩ := Leaf.offence?_plain hfirst.offends
    obtain ⟨w'', halone⟩ := nested_of_offence (c := c) (E := E) (w := w) hfirst.offends
    refine ⟨path, x, e, _, hfirst, rfl, ?_, ?_, congrArg Prod.fst halone⟩
    · rw [SessionError.sites_within, hsites, List.append_nil]
    · rw [SessionError.root_within, hroot]

/-- The sample session's world with an array of two arrays: one of the integers 1 and 2, the latter as a
binary64 number, and one of null. -/
def nestedWorld : World :=
  let array (items : List Value) : Object :=
    { label := "nested", shape := .array items none, properties := [] : ObjectDescription }.bareObject
  let w := Session.sampleWorld 1
  let (numbers, heap) := w.heap.alloc (array [.int 1, .float ⟨0x4000000000000000⟩])
  let (nulls, heap) := heap.alloc (array [.null])
  let (_, heap) := heap.alloc (array [.object numbers, .object nulls])
  { w with heap }

def nestedValue : Value := .object ⟨nestedWorld.heap.objects.size - 1⟩

/-- The null in the second array is the first offence, and alone it is missing as well. -/
theorem nested_lists_convert_sample : ∃ path x e,
    Leaf.int32.FirstOffence (nestedWorld.context ⟨0⟩).kinds nestedWorld.heap 2 nestedValue path x e ∧
    path.map Conversion.elementSite = ["[1]", "[0]"] ∧ e = .missingValue := by
  let run := (nested .int32 2).apply ⟨0⟩ .required nestedValue (Engine.ofFuel 3 stackSize) nestedWorld
  have hfailure : failure? run.1 = some (.located "[1]" (.located "[0]" .missingValue)) := by
    decide +kernel
  have hfailure := congrArg Prod.fst (run_of_failure hfailure)
  obtain ⟨hfits, _, hoffends, _⟩ := nested_lists_convert ⟨0⟩ (Engine.ofFuel 3 stackSize) nestedWorld
    .int32 2 nestedValue (by decide +kernel)
  have hnot : ¬Leaf.int32.Fits (nestedWorld.context ⟨0⟩).kinds nestedWorld.heap 2 nestedValue := by
    intro h
    obtain ⟨item, hitem⟩ := hfits.2 h
    cases hfailure.symm.trans hitem
  obtain ⟨path, x, e, failure, hfirst, hrun, hsites, hroot, _⟩ := hoffends hnot
  cases hfailure.symm.trans hrun
  exact ⟨path, x, e, hfirst, hsites.symm, hroot.symm⟩

end Conv

end ProxySession
