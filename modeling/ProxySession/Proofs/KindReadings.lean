import Mathlib.Data.List.TakeWhile
import ProxySession.Proofs.Enumeration
import ProxySession.Proofs.KindNames
import ProxySession.Proofs.NumberReadings
import ProxySession.Proofs.Visits
import ProxySession.Session.Bootstrap

/-!
# Reading a table of syntax kinds

A table is read from the enumerable properties of an object, one after the other in the order of
enumeration. The first property that cannot be read, or holds a number that is no 32-bit integer, is the
error. If there is none, the table names the codes of the properties that hold numbers.
-/

namespace ProxySession

open Effect

/-! ## Reading properties -/

/-- A value that is no number is skipped; a number has to be a 32-bit integer. -/
def Value.Fits (v : Value) : Prop := v.IsNumber → ∃ n, v.IsWithin (2 ^ 31) n

namespace Value

variable {v : Value}

theorem number?_of_not_isNumber (hv : ¬v.IsNumber) : v.number? = none ∧ v.exactInt32? = none := by
  cases v with
  | int n => exact absurd (.int n) hv
  | float x => exact absurd (.float x) hv
  | _ => exact ⟨rfl, rfl⟩

theorem IsNumber.number? (hv : v.IsNumber) : ∃ x, v.number? = some x := by
  cases hv <;> exact ⟨_, rfl⟩

/-- A number fits if it has a code. -/
theorem IsNumber.fits_iff (hv : v.IsNumber) : v.Fits ↔ ∃ code, v.exactInt32? = some code := by
  constructor
  · intro h
    obtain ⟨n, hn⟩ := h hv
    refine ⟨.ofInt n, (exactInt32?_eq_some hv).2 ?_⟩
    rwa [Int32.toInt_ofInt_of_le hn.2.1 hn.2.2]
  · rintro ⟨code, hcode⟩ _
    exact ⟨_, (exactInt32?_eq_some hv).1 hcode⟩

end Value

namespace Bootstrap

open PropertyKey

/-- A property of an object: its name, which is decoded first, and its value. -/
def namedProperty (r : ObjectRef) (key : Units) : Operation (String × Value) := do
  let name ← match kindName key with
    | .ok name => pure name
    | .error offset => fail (.brokenText offset)
  let v ← foreign (Eval.getProperty r (.text key))
  pure (name, v)

/-- The error of a number that is no 32-bit integer. -/
def misfit (name : String) (x : Binary64) : SessionError :=
  .located name (.shapeMismatch "32-bit integer" (NumberStyle.plain.write x))

/-- What a property adds to a table. -/
def entryOf (e : String × Value) : Except SessionError (Option (String × Int32)) :=
  match e.2.number? with
  | none => .ok none
  | some x =>
    match e.2.exactInt32? with
    | some code => .ok (some (e.1, code))
    | none => .error (misfit e.1 x)

/-- The entries of a table: the properties that hold numbers. -/
def numeric (found : List (String × Value)) : List (String × Int32) :=
  found.filterMap fun e => e.2.exactInt32?.map fun code => (e.1, code)

theorem entryOf_of_fits {e : String × Value} (h : e.2.Fits) :
    entryOf e = .ok (e.2.exactInt32?.map fun code => (e.1, code)) := by
  rw [entryOf]
  by_cases hv : e.2.IsNumber
  · obtain ⟨x, hx⟩ := hv.number?
    obtain ⟨code, hcode⟩ := hv.fits_iff.1 h
    simp only [hx, hcode, Option.map_some]
  · obtain ⟨hx, hcode⟩ := Value.number?_of_not_isNumber hv
    simp only [hx, hcode, Option.map_none]

theorem entryOf_of_misfit {e : String × Value} (h : ¬e.2.Fits) :
    ∃ x, e.2.number? = some x ∧ entryOf e = .error (misfit e.1 x) := by
  have hv : e.2.IsNumber := by
    by_contra hv
    exact h fun hn => absurd hn hv
  obtain ⟨x, hx⟩ := hv.number?
  have hnone : e.2.exactInt32? = none :=
    Option.eq_none_iff_forall_ne_some.2 fun code hcode => h (hv.fits_iff.2 ⟨code, hcode⟩)
  exact ⟨x, hx, by simp only [entryOf, hx, hnone]⟩

/-- Reads a property and makes an entry of it. -/
def kindEntry (r : ObjectRef) (key : Units) : Operation (Option (String × Int32)) :=
  namedProperty r key >>= fun e => ofExcept (entryOf e)

/-- One round of the loop over the properties. -/
theorem kindEntries_text (r : ObjectRef) (t : Units) (rest : List PropertyKey) :
    kindEntries r (.text t :: rest) = namedProperty r t >>= fun e =>
      match entryOf e with
      | .ok none => kindEntries r rest
      | .ok (some entry) => List.cons entry <$> kindEntries r rest
      | .error e => fail e := by
  funext E w
  rw [kindEntries, namedProperty]
  rcases kindName t with offset | name
  · rfl
  · change (foreign (Eval.getProperty r (.text t)) >>= _) E w =
      ((foreign (Eval.getProperty r (.text t)) >>= fun v => pure (name, v)) >>= _) E w
    rw [bind_assoc]
    rcases hread : foreign (Eval.getProperty r (.text t)) E w with ⟨s | v, w₁⟩
    · rw [bind_of_error hread, bind_of_error hread]
    · rw [bind_of_ok hread, bind_of_ok hread, bind_of_ok (x := pure (name, v)) rfl, entryOf]
      dsimp only
      rcases v.number? with _ | x
      · rfl
      · rcases v.exactInt32? with _ | code <;> rfl

theorem kindEntries_eq (r : ObjectRef) (keys : List PropertyKey) :
    kindEntries r keys = List.reduceOption <$> collect (kindEntry r) (texts keys) := by
  induction keys with
  | nil => rfl
  | cons key rest ih =>
    cases key with
    | symbol n => exact ih
    | text t =>
      have htexts : texts (.text t :: rest) = t :: texts rest := rfl
      funext E w
      rw [kindEntries_text, htexts, collect_cons, map_eq, kindEntry, bind_assoc]
      rcases hread : namedProperty r t E w with ⟨s | e, w₁⟩
      · rw [bind_of_error hread, bind_of_error hread]
        rfl
      · rw [bind_of_ok hread, bind_of_ok hread, ih]
        have hok (entry : Option (String × Int32)) : (ofExcept (.ok entry) >>= fun a =>
            List.cons a <$> collect (kindEntry r) (texts rest)) =
              List.cons entry <$> collect (kindEntry r) (texts rest) := rfl
        rcases entryOf e with error | _ | entry
        · rfl
        · change (List.reduceOption <$> collect (kindEntry r) (texts rest)) E w₁ = _
          rw [hok, map_eq, map_eq]
          rcases collect (kindEntry r) (texts rest) E w₁ with ⟨s | entries, w₂⟩ <;> rfl
        · change (List.cons entry <$> List.reduceOption <$> collect (kindEntry r) (texts rest)) E w₁ = _
          rw [hok, map_eq, map_eq, map_eq]
          rcases collect (kindEntry r) (texts rest) E w₁ with ⟨s | entries, w₂⟩ <;> rfl

/-! ## The loop -/

/-- The property under the key of a number. -/
def propertyAt (r : ObjectRef) (keys : List Units) (i : Nat) : Operation (String × Value) :=
  namedProperty r (keys.getD i default)

/-- How the reading of a table ends: after all properties, at the first that cannot be read, or at the
first that holds a number out of range. -/
inductive Tabulates (r : ObjectRef) (keys : List Units) (E : Engine) (w : World) :
    Except (Stop SessionError) KindTable × World → Prop
  | complete {found : List (String × Value)} {w₁ : World} :
      Visited (propertyAt r keys) E w found w₁ → found.length = keys.length → (∀ e ∈ found, e.2.Fits) →
        Tabulates r keys E w (.ok (.ofEntries (numeric found)), w₁)
  | stopped {found : List (String × Value)} {w₁ : World} {s : Stop SessionError} {w₂ : World} :
      Visited (propertyAt r keys) E w found w₁ → found.length < keys.length → (∀ e ∈ found, e.2.Fits) →
        propertyAt r keys found.length E w₁ = (.error s, w₂) → Tabulates r keys E w (.error s, w₂)
  | misfit {found : List (String × Value)} {w₁ : World} {name : String} {v : Value} {x : Binary64}
      {w₂ : World} : Visited (propertyAt r keys) E w found w₁ → found.length < keys.length →
        (∀ e ∈ found, e.2.Fits) → propertyAt r keys found.length E w₁ = (.ok (name, v), w₂) →
          ¬v.Fits → v.number? = some x →
            Tabulates r keys E w (.error (.failed (misfit name x)), w₂)

section

variable {r : ObjectRef} {keys : List Units} {E : Engine} {w w₁ w₂ : World}

/-- The entry that a property makes, if it holds a number. -/
def codeOf (e : String × Value) : Option (String × Int32) := e.2.exactInt32?.map fun code => (e.1, code)

theorem kindEntry_ok {key : Units} {a : Option (String × Int32)} :
    kindEntry r key E w = (.ok a, w₁) ↔
      ∃ e, namedProperty r key E w = (.ok e, w₁) ∧ e.2.Fits ∧ a = codeOf e := by
  rw [kindEntry]
  rcases hread : namedProperty r key E w with ⟨s | e, w'⟩
  · rw [bind_of_error hread]
    simp
  · rw [bind_of_ok hread]
    by_cases hfits : e.2.Fits
    · rw [entryOf_of_fits hfits]
      constructor
      · intro h
        cases h
        exact ⟨e, rfl, hfits, rfl⟩
      · rintro ⟨e', he, _, rfl⟩
        cases he
        rfl
    · obtain ⟨x, _, herror⟩ := entryOf_of_misfit hfits
      rw [herror]
      constructor
      · intro h
        cases h
      · rintro ⟨e', he, hfits', _⟩
        cases he
        exact absurd hfits' hfits

/-- The first entries are those of the first properties, all of which fit. -/
theorem visited_kindEntry {as : List (Option (String × Int32))} :
    Visited (fun i => kindEntry r (keys.getD i default)) E w as w₁ ↔
      ∃ found, Visited (propertyAt r keys) E w found w₁ ∧ (∀ e ∈ found, e.2.Fits) ∧
        as = found.map codeOf := by
  constructor
  · intro h
    induction h with
    | start => exact ⟨[], .start, nofun, rfl⟩
    | @next as w₁ a w₂ _ hstep ih =>
      obtain ⟨found, hfound, hfits, rfl⟩ := ih
      obtain ⟨e, hread, he, rfl⟩ := kindEntry_ok.1 hstep
      rw [List.length_map] at hread
      refine ⟨found ++ [e], hfound.next hread, fun e' he' => ?_, by simp⟩
      rcases List.mem_append.1 he' with he' | he'
      · exact hfits e' he'
      · exact List.mem_singleton.1 he' ▸ he
  · rintro ⟨found, hfound, hfits, rfl⟩
    induction hfound with
    | start => exact .start
    | @next found w₁ e w₂ _ hread ih =>
      have hbefore := ih fun e' he' => hfits e' (List.mem_append_left _ he')
      have hstep : kindEntry r (keys.getD (found.map codeOf).length default) E w₁ =
          (.ok (codeOf e), w₂) :=
        kindEntry_ok.2 ⟨e, by rw [List.length_map]; exact hread, hfits e (by simp), rfl⟩
      rw [List.map_append]
      exact hbefore.next hstep

/-- What ends a round: a property that cannot be read, or one that does not fit. -/
theorem kindEntry_error {key : Units} {s : Stop SessionError} :
    kindEntry r key E w = (.error s, w₁) ↔ namedProperty r key E w = (.error s, w₁) ∨
      ∃ name v x, namedProperty r key E w = (.ok (name, v), w₁) ∧ ¬v.Fits ∧ v.number? = some x ∧
        s = .failed (misfit name x) := by
  rw [kindEntry]
  rcases hread : namedProperty r key E w with ⟨s' | e, w'⟩
  · rw [bind_of_error hread]
    simp
  · rw [bind_of_ok hread]
    by_cases hfits : e.2.Fits
    · rw [entryOf_of_fits hfits]
      constructor
      · intro h
        cases h
      · rintro (h | ⟨name, v, x, h, hv, _⟩)
        · cases h
        · cases h
          exact absurd hfits hv
    · obtain ⟨x, hx, herror⟩ := entryOf_of_misfit hfits
      rw [herror]
      constructor
      · intro h
        cases h
        exact .inr ⟨e.1, e.2, x, rfl, hfits, hx, rfl⟩
      · rintro (h | ⟨name, v, x', h, _, hx', rfl⟩)
        · cases h
        · cases h
          rw [hx] at hx'
          cases hx'
          rfl

theorem reduceOption_entries (found : List (String × Value)) :
    (found.map codeOf).reduceOption = numeric found := by
  change (found.map codeOf).filterMap id = numeric found
  rw [List.filterMap_map]
  rfl

/-- The loop over the keys ends so, and in no other way. -/
theorem collect_tabulates (result : Except (Stop SessionError) KindTable × World) :
    ((collect (kindEntry r) keys E w).1.map fun as => .ofEntries as.reduceOption,
        (collect (kindEntry r) keys E w).2) = result ↔ Tabulates r keys E w result := by
  have hloop := collect_list_visits (kindEntry r) keys E w
  generalize collect (kindEntry r) keys E w = run at hloop ⊢
  constructor
  · rintro rfl
    cases hloop with
    | done hv hn =>
      obtain ⟨found, hfound, hfits, rfl⟩ := visited_kindEntry.1 hv
      rw [List.length_map] at hn
      have h := Tabulates.complete hfound hn hfits
      rw [← reduceOption_entries] at h
      exact h
    | stopped hv hlt hstop =>
      obtain ⟨found, hfound, hfits, rfl⟩ := visited_kindEntry.1 hv
      rw [List.length_map] at hlt hstop
      rcases kindEntry_error.1 hstop with hread | ⟨name, v, x, hread, hv, hx, rfl⟩
      · exact .stopped hfound hlt hfits hread
      · exact .misfit hfound hlt hfits hread hv hx
  · intro h
    cases h with
    | complete hfound hn hfits =>
      have hv := visited_kindEntry.2 ⟨_, hfound, hfits, rfl⟩
      rw [hloop.unique (.done hv (by rwa [List.length_map])), ← reduceOption_entries]
      rfl
    | stopped hfound hlt hfits hread =>
      have hv := visited_kindEntry.2 ⟨_, hfound, hfits, rfl⟩
      have hstop := kindEntry_error.2 (.inl hread)
      rw [← List.length_map codeOf] at hlt hstop
      rw [hloop.unique (.stopped hv hlt hstop)]
      rfl
    | misfit hfound hlt hfits hread hv hx =>
      have hbefore := visited_kindEntry.2 ⟨_, hfound, hfits, rfl⟩
      have hstop := kindEntry_error.2 (.inr ⟨_, _, _, hread, hv, hx, rfl⟩)
      rw [← List.length_map codeOf] at hlt hstop
      rw [hloop.unique (.stopped hbefore hlt hstop)]
      rfl

/-- A table is read from the text keys that the object has at the beginning. -/
theorem kindTable_tabulates {result : Except (Stop SessionError) KindTable × World} :
    kindTable r E w = result ↔
      Tabulates r (texts (w.heap.object r).enumerableKeys) E w result := by
  rw [← collect_tabulates]
  have hrun : kindTable r E w = (KindTable.ofEntries <$>
      kindEntries r (w.heap.object r).enumerableKeys) E w := rfl
  rw [hrun, kindEntries_eq, map_map, map_eq]

end

/-! ## Well-formed keys -/

/-- Keys from which names can be read, no two of them the same. -/
structure WellFormed (keys : List Units) (names : List String) : Prop where
  named : keys.map kindName = names.map .ok
  distinct : names.Nodup

/-- A text without a zero character is the name that it gives. -/
theorem kindName_ofString {name : String} (h : '\x00' ∉ name.toList) :
    kindName (.ofString name) = .ok name := by
  have hall : (Units.ofString name).codes.takeWhile (· != 0) = (Units.ofString name).codes := by
    refine List.takeWhile_eq_self_iff.2 fun u hu => ?_
    obtain ⟨c, hc, hu⟩ := List.mem_flatMap.1 hu
    exact bne_iff_ne.2 (Units.ne_zero_of_mem_ofChar (fun h0 => h (h0 ▸ hc)) hu)
  rw [kindName, hall]
  exact Units.decode_ofString name

theorem WellFormed.of_strings {names : List String} (h : ∀ name ∈ names, '\x00' ∉ name.toList)
    (hd : names.Nodup) : WellFormed (names.map Units.ofString) names where
  named := by
    rw [List.map_map]
    exact List.map_congr_left fun name hname => kindName_ofString (h name hname)
  distinct := hd

namespace WellFormed

variable {keys : List Units} {names : List String} {r : ObjectRef} {E : Engine} {w w₁ : World}

theorem length (h : WellFormed keys names) : names.length = keys.length := by
  simpa using (congrArg List.length h.named).symm

/-- A property is its name and what is read under its key. -/
theorem propertyAt_eq (h : WellFormed keys names) (r : ObjectRef) {i : Nat} {key : Units} {name : String}
    (hkey : keys[i]? = some key) (hname : names[i]? = some name) :
    propertyAt r keys i = Prod.mk name <$> foreign (Eval.getProperty r (.text key)) := by
  have hnamed : kindName key = .ok name := by
    have hget := congrArg (·[i]?) h.named
    simpa [hkey, hname] using hget
  rw [propertyAt, List.getD_eq_getElem?_getD, hkey, Option.getD_some, namedProperty, hnamed]
  rfl

/-- All properties are found under their names. -/
theorem names_found (h : WellFormed keys names) {found : List (String × Value)}
    (hv : Visited (propertyAt r keys) E w found w₁) (hn : found.length = keys.length) :
    found.map Prod.fst = names := by
  refine List.ext_getElem (by rw [List.length_map, hn, h.length]) fun i hi hi' => ?_
  rw [List.length_map] at hi
  obtain ⟨w₀, w₂, _, hstep, _⟩ := hv.at_step hi
  rw [h.propertyAt_eq r (List.getElem?_eq_getElem (hn ▸ hi)) (List.getElem?_eq_getElem hi')] at hstep
  obtain ⟨v, _, hfound⟩ := map_ok hstep
  rw [List.getElem_map, ← hfound]

end WellFormed

/-! ## The law -/

theorem mem_numeric {found : List (String × Value)} {name : String} {code : Int32} :
    (name, code) ∈ numeric found ↔
      ∃ v, (name, v) ∈ found ∧ v.IsNumber ∧ v.IsWithin (2 ^ 31) code.toInt := by
  have hcode (v : Value) : v.exactInt32? = some code ↔
      v.IsNumber ∧ v.IsWithin (2 ^ 31) code.toInt := by
    by_cases hv : v.IsNumber
    · rw [Value.exactInt32?_eq_some hv]
      exact ⟨fun h => ⟨hv, h⟩, And.right⟩
    · rw [(Value.number?_of_not_isNumber hv).2]
      exact ⟨nofun, fun h => absurd h.1 hv⟩
  rw [numeric, List.mem_filterMap]
  constructor
  · rintro ⟨⟨n, v⟩, he, hmap⟩
    obtain ⟨code', hv, heq⟩ := Option.map_eq_some_iff.1 hmap
    cases heq
    exact ⟨v, he, (hcode v).1 hv⟩
  · rintro ⟨v, he, hv⟩
    exact ⟨(name, v), he, by rw [(hcode v).2 hv, Option.map_some]⟩

/-- The names of the entries are among those of the properties. -/
theorem numeric_sublist (found : List (String × Value)) :
    ((numeric found).map Prod.fst).Sublist (found.map Prod.fst) := by
  induction found with
  | nil => exact .slnil
  | cons e rest ih =>
    rcases hcode : e.2.exactInt32? with _ | code
    · have hskip : numeric (e :: rest) = numeric rest := by simp [numeric, hcode]
      rw [hskip]
      exact ih.cons e.1
    · have htake : numeric (e :: rest) = (e.1, code) :: numeric rest := by simp [numeric, hcode]
      rw [htake]
      exact ih.cons_cons e.1

/-- A table names the codes of its entries canonically, whatever they are. One that is read from an object
takes the properties in the order of enumeration and ends at the first that cannot be read or holds a
number out of range; if there is none, it names the codes of the properties that hold numbers. -/
theorem kind_tables_canonical :
    (∀ entries, (KindTable.ofEntries entries).Canonical entries) ∧
    (∀ o : Object, Object.Enumerates (texts o.madeKeys) (texts o.enumerableKeys)) ∧
    (∀ r E w result, kindTable r E w = result ↔
      Tabulates r (texts (w.heap.object r).enumerableKeys) E w result) ∧
    (∀ found name code, (name, code) ∈ numeric found ↔
      ∃ v, (name, v) ∈ found ∧ v.IsNumber ∧ v.IsWithin (2 ^ 31) code.toInt) ∧
    ∀ r E w keys names, keys = texts (w.heap.object r).enumerableKeys → WellFormed keys names →
      (∀ (i : Nat) key name, keys[i]? = some key → names[i]? = some name →
        propertyAt r keys i = Prod.mk name <$> foreign (Eval.getProperty r (.text key))) ∧
      ∀ t w₁, kindTable r E w = (.ok t, w₁) → ∃ found, Visited (propertyAt r keys) E w found w₁ ∧
        found.map Prod.fst = names ∧ t.Exact (numeric found) := by
  refine ⟨KindTable.ofEntries_canonical, Object.enumerableKeys_enumerates,
    fun r E w result => kindTable_tabulates, fun found name code => mem_numeric,
    fun r E w keys names hkeys h => ⟨fun i key name => h.propertyAt_eq r, fun t w₁ hrun => ?_⟩⟩
  cases kindTable_tabulates.1 hrun with
  | complete hv hn _ =>
    rw [← hkeys] at hv hn
    have hfound := h.names_found hv hn
    have hdistinct := (numeric_sublist _).nodup (hfound ▸ h.distinct)
    exact ⟨_, hv, hfound, KindTable.ofEntries_exact hdistinct⟩

/-- The sample heap where the table of syntax kinds has kinds: a range marker before the name that it
marks, an entry in the other direction, and a property that is no number. -/
def kindsHeap : Heap :=
  let property (name : String) (v : Value) : Property := ⟨.ofString name, .data v, true⟩
  Session.sampleHeap.update ⟨4⟩ fun o =>
    [property "FirstToken" (.int 0), property "Unknown" (.int 0), property "Identifier" (.int 80),
      property "80" (.ofString "Identifier"), property "Skipped" (.bool true)].foldl Object.define o

/-- The names come in the order of enumeration, and the marker gives way. -/
theorem kind_tables_canonical_sample :
    ∃ found w₁, Visited (propertyAt ⟨4⟩ (texts (kindsHeap.object ⟨4⟩).enumerableKeys))
        (Engine.ofFuel 2 stackSize) (.ofHeap kindsHeap) found w₁ ∧
      found.map Prod.fst = ["80", "FirstToken", "Unknown", "Identifier", "Skipped"] ∧
      (⟨[(0, "Unknown"), (80, "Identifier")],
        [("FirstToken", 0), ("Unknown", 0), ("Identifier", 80)]⟩ : KindTable).Exact (numeric found) := by
  have hkeys : texts (kindsHeap.object ⟨4⟩).enumerableKeys =
      ["80", "FirstToken", "Unknown", "Identifier", "Skipped"].map Units.ofString := by
    decide +kernel
  have hformed : WellFormed (texts (kindsHeap.object ⟨4⟩).enumerableKeys)
      ["80", "FirstToken", "Unknown", "Identifier", "Skipped"] := by
    rw [hkeys]
    exact .of_strings (by decide) (by decide)
  have hrun : (kindTable ⟨4⟩ (Engine.ofFuel 2 stackSize) (.ofHeap kindsHeap)).1.toOption =
      some ⟨[(0, "Unknown"), (80, "Identifier")],
        [("FirstToken", 0), ("Unknown", 0), ("Identifier", 80)]⟩ := by
    decide +kernel
  obtain ⟨_, _, _, _, hlaw⟩ := kind_tables_canonical
  obtain ⟨_, hread⟩ := hlaw ⟨4⟩ (Engine.ofFuel 2 stackSize) (.ofHeap kindsHeap) _ _ rfl hformed
  obtain ⟨found, hv, hnames, hexact⟩ := hread _ _ (Session.run_of_toOption hrun)
  exact ⟨found, _, hv, hnames, hexact⟩

end Bootstrap

end ProxySession
