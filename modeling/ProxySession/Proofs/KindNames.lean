import ProxySession.KindTable
import ProxySession.Proofs.Tokens

/-!
# Canonical names of syntax kinds

A table of syntax kinds is filled in one pass, with names replaced on the way. What it ends with depends on
the entries alone: the canonical name of a code is that of its first entry that marks no range, or of its
first entry if all of them do, and the code of a name is that of its last entry.
-/

namespace ProxySession

namespace KindTable

/-! ## Association lists -/

section

variable {κ ν : Type} [BEq κ] [LawfulBEq κ]

theorem lookup_put (key key' : κ) (value : ν) (l : List (κ × ν)) :
    (put key value l).lookup key' = if key' == key then some value else l.lookup key' := by
  induction l with
  | nil => cases h : key' == key <;> simp [put, List.lookup_cons, h]
  | cons e rest ih =>
    obtain ⟨k, v⟩ := e
    rw [put]
    split
    · next hk =>
      obtain rfl : k = key := LawfulBEq.eq_of_beq hk
      cases h : key' == k <;> simp [List.lookup_cons, h]
    · next hk =>
      rw [List.lookup_cons, List.lookup_cons, ih]
      cases h : key' == k with
      | false => rfl
      | true =>
        obtain rfl : key' = k := LawfulBEq.eq_of_beq h
        simp [hk]

theorem keys_put (key : κ) (value : ν) (l : List (κ × ν)) :
    (put key value l).map Prod.fst =
      if key ∈ l.map Prod.fst then l.map Prod.fst else l.map Prod.fst ++ [key] := by
  induction l with
  | nil => simp [put]
  | cons e rest ih =>
    obtain ⟨k, v⟩ := e
    rw [put]
    split
    · next hk =>
      obtain rfl : k = key := LawfulBEq.eq_of_beq hk
      simp
    · next hk =>
      have hne : key ≠ k := fun h => hk (by simp [h])
      by_cases hmem : key ∈ rest.map Prod.fst
      · simp only [List.map_cons, ih, List.mem_cons, hmem, or_true, if_true]
      · simp only [List.map_cons, ih, List.mem_cons, hmem, hne, or_false, if_false, List.cons_append]

theorem lookup_isSome_iff (key : κ) (l : List (κ × ν)) :
    (l.lookup key).isSome ↔ key ∈ l.map Prod.fst := by
  rw [← not_iff_not, Option.not_isSome_iff_eq_none, List.lookup_eq_none_iff, List.mem_map]
  constructor
  · rintro h ⟨e, he, rfl⟩
    simpa using h e he
  · intro h e he
    exact bne_iff_ne.2 fun heq => h ⟨e, he, heq.symm⟩

end

/-! ## Canonical names -/

variable {entries : List (String × Int32)} {code : Int32}

/-- The first entry with a code. -/
def first? (entries : List (String × Int32)) (code : Int32) : Option (String × Int32) :=
  entries.find? fun e => e.2 == code

/-- The first entry with a code whose name does not mark a range. -/
def firstPlain? (entries : List (String × Int32)) (code : Int32) : Option (String × Int32) :=
  entries.find? fun e => e.2 == code && !isRangeMarker e.1

/-- The canonical name of a code: that of the first entry with the code that does not mark a range, or else
of the first one with it. -/
def canonical? (entries : List (String × Int32)) (code : Int32) : Option String :=
  ((firstPlain? entries code).or (first? entries code)).map Prod.fst

theorem first?_mem {e : String × Int32} (h : first? entries code = some e) :
    e ∈ entries ∧ e.2 = code :=
  ⟨List.mem_of_find?_eq_some h, by simpa using List.find?_some h⟩

theorem firstPlain?_mem {e : String × Int32} (h : firstPlain? entries code = some e) :
    e ∈ entries ∧ e.2 = code ∧ isRangeMarker e.1 = false :=
  ⟨List.mem_of_find?_eq_some h, by simpa using List.find?_some h⟩

theorem canonical?_of_plain {e : String × Int32} (h : firstPlain? entries code = some e) :
    canonical? entries code = some e.1 := by
  rw [canonical?, h, Option.some_or, Option.map_some]

/-- Where there is no plain name, the canonical one marks a range. -/
theorem canonical?_of_marker (h : firstPlain? entries code = none) :
    canonical? entries code = (first? entries code).map Prod.fst ∧
      ∀ e ∈ first? entries code, isRangeMarker e.1 = true := by
  refine ⟨by rw [canonical?, h, Option.none_or], fun e he => ?_⟩
  obtain ⟨hmem, hcode⟩ := first?_mem he
  simpa [hcode] using List.find?_eq_none.1 h e hmem

/-- A canonical name comes from an entry with its code. -/
theorem canonical?_mem {name : String} (h : canonical? entries code = some name) :
    (name, code) ∈ entries := by
  rcases hp : firstPlain? entries code with _ | e
  · rw [(canonical?_of_marker hp).1] at h
    obtain ⟨e, he, rfl⟩ := Option.map_eq_some_iff.1 h
    obtain ⟨hmem, rfl⟩ := first?_mem he
    exact hmem
  · rw [canonical?_of_plain hp] at h
    cases h
    obtain ⟨hmem, rfl, _⟩ := firstPlain?_mem hp
    exact hmem

theorem canonical?_isSome : (canonical? entries code).isSome ↔ ∃ name, (name, code) ∈ entries := by
  constructor
  · intro h
    obtain ⟨name, hname⟩ := Option.isSome_iff_exists.1 h
    exact ⟨name, canonical?_mem hname⟩
  · rintro ⟨name, hmem⟩
    have hfirst : (first? entries code).isSome := List.find?_isSome.2 ⟨_, hmem, beq_self_eq_true code⟩
    rw [canonical?, Option.isSome_map, Option.isSome_or, hfirst, Bool.or_true]

/-- A new last entry changes the canonical name of its own code at most: if the code has none, or if the
entry replaces a range marker without being one. -/
theorem canonical?_concat (entries : List (String × Int32)) (e : String × Int32) (code : Int32) :
    canonical? (entries ++ [e]) code =
      if code = e.2 ∧ ∀ name ∈ canonical? entries code, isRangeMarker name ∧ ¬isRangeMarker e.1 then
        some e.1
      else
        canonical? entries code := by
  have hfirst : first? (entries ++ [e]) code = (first? entries code).or (first? [e] code) :=
    List.find?_append
  have hplain : firstPlain? (entries ++ [e]) code =
    (firstPlain? entries code).or (firstPlain? [e] code) := List.find?_append
  by_cases hcode : code = e.2
  · subst hcode
    have hlast : first? [e] e.2 = some e := by simp [first?]
    have hlast' : firstPlain? [e] e.2 = if isRangeMarker e.1 then none else some e := by
      cases h : isRangeMarker e.1 <;> simp [firstPlain?, h]
    rw [canonical?, hfirst, hplain, hlast, hlast']
    rcases hp : firstPlain? entries e.2 with _ | x
    · obtain ⟨hc, hmark⟩ := canonical?_of_marker hp
      rw [hc]
      rcases hq : first? entries e.2 with _ | y
      · cases isRangeMarker e.1 <;> simp
      · have hy := hmark y hq
        cases h : isRangeMarker e.1 <;> simp [hy]
    · obtain ⟨_, _, hmark⟩ := firstPlain?_mem hp
      rw [canonical?_of_plain hp]
      simp [hmark]
  · have hne : (e.2 == code) = false := beq_eq_false_iff_ne.2 fun h => hcode h.symm
    rw [if_neg fun h => hcode h.1, canonical?, hfirst, hplain]
    simp [canonical?, first?, firstPlain?, hne]

/-! ## The table -/

theorem add_names (t : KindTable) (e : String × Int32) : (t.add e).names =
    if ∀ name ∈ t.names.lookup e.2, isRangeMarker name ∧ ¬isRangeMarker e.1 then
      put e.2 e.1 t.names
    else
      t.names := by
  rw [add]
  rcases t.names.lookup e.2 with _ | name
  · simp
  · cases h : isRangeMarker name <;> cases h' : isRangeMarker e.1 <;> simp [h]

theorem ofEntries_concat (entries : List (String × Int32)) (e : String × Int32) :
    ofEntries (entries ++ [e]) = (ofEntries entries).add e := by
  rw [ofEntries, List.foldl_append]
  rfl

theorem ofEntries_names (entries : List (String × Int32)) (code : Int32) :
    (ofEntries entries).names.lookup code = canonical? entries code := by
  induction entries using List.reverseRecOn with
  | nil => rfl
  | append_singleton entries e ih =>
    rw [ofEntries_concat, canonical?_concat, add_names, ← ih]
    by_cases hcode : code = e.2
    · subst hcode
      simp only [true_and]
      split
      · rw [lookup_put, beq_self_eq_true, if_pos rfl]
      · rfl
    · have hne : (code == e.2) = false := beq_eq_false_iff_ne.2 hcode
      simp only [hcode, false_and, if_false]
      split
      · rw [lookup_put, hne, if_neg Bool.false_ne_true]
      · rfl

theorem ofEntries_codes (entries : List (String × Int32)) (name : String) :
    (ofEntries entries).codes.lookup name = entries.reverse.lookup name := by
  induction entries using List.reverseRecOn with
  | nil => rfl
  | append_singleton entries e ih =>
    obtain ⟨n, c⟩ := e
    rw [ofEntries_concat, add, lookup_put, ih, List.reverse_append, List.reverse_singleton,
      List.singleton_append, List.lookup_cons]
    cases name == n <;> rfl

/-- The codes in a table, in the order in which they first had an entry. -/
theorem ofEntries_keys (entries : List (String × Int32)) :
    (ofEntries entries).names.map Prod.fst = (entries.map Prod.snd).eraseDups := by
  induction entries using List.reverseRecOn with
  | nil => rfl
  | append_singleton entries e ih =>
    have hmem : e.2 ∈ (ofEntries entries).names.map Prod.fst ↔ e.2 ∈ entries.map Prod.snd := by
      rw [ih, List.mem_eraseDups]
    rw [ofEntries_concat, List.map_append, List.map_singleton, eraseDups_concat, ← ih, add_names]
    by_cases hnew : e.2 ∈ entries.map Prod.snd
    · rw [if_pos hnew]
      split
      · rw [keys_put, if_pos (hmem.2 hnew)]
      · rfl
    · have hnone : (ofEntries entries).names.lookup e.2 = none := by
        rw [← Option.not_isSome_iff_eq_none, lookup_isSome_iff, hmem]
        exact hnew
      rw [if_neg hnew, if_pos (by simp [hnone]), keys_put, if_neg fun h => hnew (hmem.1 h)]

/-- The table names the codes of the entries canonically. -/
structure Canonical (t : KindTable) (entries : List (String × Int32)) : Prop where
  kind : ∀ code, t.kind? code = (canonical? entries code).map (⟨code, ·⟩)
  present : ∀ code, (t.kind? code).isSome ↔ ∃ name, (name, code) ∈ entries
  code : ∀ name, t.code? name = entries.reverse.lookup name
  known : ∀ name, (t.byName? name).isSome ↔ (t.code? name).isSome
  byName : ∀ name code, t.code? name = some code → t.byName? name = t.kind? code
  size : t.size = (entries.map Prod.snd).eraseDups.length

theorem ofEntries_canonical (entries : List (String × Int32)) : (ofEntries entries).Canonical entries := by
  have hkind (code : Int32) :
      (ofEntries entries).kind? code = (canonical? entries code).map (⟨code, ·⟩) := by
    rw [kind?, ofEntries_names]
  have hpresent (code : Int32) :
      ((ofEntries entries).kind? code).isSome ↔ ∃ name, (name, code) ∈ entries := by
    rw [hkind, Option.isSome_map, canonical?_isSome]
  have hcode (name : String) : (ofEntries entries).code? name = entries.reverse.lookup name :=
    ofEntries_codes entries name
  have hbyName (name : String) (code : Int32) (h : (ofEntries entries).code? name = some code) :
      (ofEntries entries).byName? name = (ofEntries entries).kind? code := by
    rw [byName?, h, Option.bind_some]
  refine ⟨hkind, hpresent, hcode, fun name => ?_, hbyName, ?_⟩
  · rcases h : (ofEntries entries).code? name with _ | code
    · simp [byName?, h]
    · rw [hbyName name code h, hpresent]
      rw [hcode] at h
      obtain ⟨before, after, hsplit, _⟩ := List.lookup_eq_some_iff.1 h
      have hmem : (name, code) ∈ entries.reverse := by simp [hsplit]
      exact ⟨fun _ => rfl, fun _ => ⟨name, List.mem_reverse.1 hmem⟩⟩
  · rw [size, ← List.length_map Prod.fst, ofEntries_keys]

/-! ## Names that differ -/

theorem lookup_iff_mem {κ ν : Type} [BEq κ] [LawfulBEq κ] {l : List (κ × ν)}
    (h : (l.map Prod.fst).Nodup) (key : κ) (value : ν) :
    l.lookup key = some value ↔ (key, value) ∈ l := by
  induction l with
  | nil => simp
  | cons e rest ih =>
    obtain ⟨k, v⟩ := e
    obtain ⟨hnew, hrest⟩ := List.nodup_cons.1 h
    rw [List.lookup_cons, List.mem_cons]
    cases hk : key == k with
    | true =>
      obtain rfl : key = k := LawfulBEq.eq_of_beq hk
      have hnot : (key, value) ∉ rest := fun hmem => hnew (List.mem_map.2 ⟨_, hmem, rfl⟩)
      simp [hnot, eq_comm]
    | false =>
      have hne : key ≠ k := beq_eq_false_iff_ne.1 hk
      simp [ih hrest, hne]

/-- The table gives each name the code of its entry, and a canonical name leads back to its code. -/
structure Exact (t : KindTable) (entries : List (String × Int32)) : Prop extends
    t.Canonical entries where
  code_iff : ∀ name code, t.code? name = some code ↔ (name, code) ∈ entries
  back : ∀ code kind, t.kind? code = some kind → kind.code = code ∧ t.code? kind.name = some code

theorem ofEntries_exact {entries : List (String × Int32)} (h : (entries.map Prod.fst).Nodup) :
    (ofEntries entries).Exact entries := by
  have hc := ofEntries_canonical entries
  have hcode (name : String) (code : Int32) :
      (ofEntries entries).code? name = some code ↔ (name, code) ∈ entries := by
    have hr : (entries.reverse.map Prod.fst).Nodup := by
      rw [List.map_reverse]
      exact List.nodup_reverse.2 h
    rw [hc.code, lookup_iff_mem hr, List.mem_reverse]
  refine ⟨hc, hcode, fun code kind hkind => ?_⟩
  rw [hc.kind] at hkind
  obtain ⟨name, hname, rfl⟩ := Option.map_eq_some_iff.1 hkind
  exact ⟨rfl, (hcode name code).2 (canonical?_mem hname)⟩

end KindTable

end ProxySession
