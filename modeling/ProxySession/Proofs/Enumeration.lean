import ProxySession.Foreign.Heap

/-!
# Keys and their order

A text that was written in units is read back as it was. The text keys of an object are enumerated with
the array indices first, in ascending order, and the others after them as they were made.
-/

namespace ProxySession

/-! ## Text and units -/

namespace Units

/-- No character is a surrogate. -/
theorem char_range (c : Char) : c.toNat < 0xD800 ∨ 0xE000 ≤ c.toNat ∧ c.toNat < 0x110000 := by
  rcases c.valid with h | ⟨h, h'⟩
  · exact .inl h
  · exact .inr ⟨h, h'⟩

/-- Both units of a pair are what was written. -/
theorem pair_toNat (c : Char) (h : ¬c.toNat < 0x10000) :
    (UInt16.ofNat (0xD800 + (c.toNat - 0x10000) / 0x400)).toNat =
        0xD800 + (c.toNat - 0x10000) / 0x400 ∧
      (UInt16.ofNat (0xDC00 + (c.toNat - 0x10000) % 0x400)).toNat =
        0xDC00 + (c.toNat - 0x10000) % 0x400 := by
  have hrange := char_range c
  have hfirst : 0xD800 + (c.toNat - 0x10000) / 0x400 < 0x10000 := by omega
  have hsecond : 0xDC00 + (c.toNat - 0x10000) % 0x400 < 0x10000 := by omega
  exact ⟨UInt16.toNat_ofNat_of_lt' hfirst, UInt16.toNat_ofNat_of_lt' hsecond⟩

theorem utf8Size_of_pair (c : Char) (h : ¬c.toNat < 0x10000) : c.utf8Size = 4 := by
  have hle : 0x10000 ≤ c.val.toNat := Nat.le_of_not_lt h
  rw [Char.utf8Size]
  simp only [UInt32.le_iff_toNat_le]
  rw [if_neg (by simp; omega), if_neg (by simp; omega), if_neg (by simp; omega)]

theorem decodeFrom_ofChar (offset : Nat) (c : Char) (rest : List UInt16) :
    decodeFrom offset (ofChar c ++ rest) = (decodeFrom (offset + c.utf8Size) rest).map (c :: ·) := by
  have hrange := char_range c
  rw [ofChar]
  split
  · next hplane =>
    have hn : (UInt16.ofNat c.toNat).toNat = c.toNat := UInt16.toNat_ofNat_of_lt' hplane
    have hhigh : isHigh (UInt16.ofNat c.toNat) = false := by
      rw [isHigh, hn, decide_eq_false_iff_not]
      omega
    have hlow : isLow (UInt16.ofNat c.toNat) = false := by
      rw [isLow, hn, decide_eq_false_iff_not]
      omega
    rw [List.singleton_append, decodeFrom.eq_def]
    simp only [hhigh, hlow, hn, Char.ofNat_toNat, Bool.false_eq_true, if_false]
  · next hplane =>
    obtain ⟨hfirst, hsecond⟩ := pair_toNat c hplane
    have hhigh : isHigh (UInt16.ofNat (0xD800 + (c.toNat - 0x10000) / 0x400)) = true := by
      rw [isHigh, hfirst, decide_eq_true_iff]
      omega
    have hlow : isLow (UInt16.ofNat (0xDC00 + (c.toNat - 0x10000) % 0x400)) = true := by
      rw [isLow, hsecond, decide_eq_true_iff]
      omega
    have hnat : 0x10000 + (0xD800 + (c.toNat - 0x10000) / 0x400 - 0xD800) * 0x400 +
        (0xDC00 + (c.toNat - 0x10000) % 0x400 - 0xDC00) = c.toNat := by
      omega
    rw [List.cons_append, List.singleton_append, decodeFrom.eq_def]
    simp only [hhigh, hlow, if_true, pairChar, hfirst, hsecond, hnat, Char.ofNat_toNat,
      utf8Size_of_pair c hplane]

/-- Reading what was written gives the characters back. -/
theorem decodeFrom_flatMap (offset : Nat) (cs : List Char) :
    decodeFrom offset (cs.flatMap ofChar) = .ok cs := by
  induction cs generalizing offset with
  | nil => rfl
  | cons c cs ih =>
    rw [List.flatMap_cons, decodeFrom_ofChar, ih]
    rfl

theorem decode_ofString (s : String) : (ofString s).decode = .ok s := by
  rw [decode, ofString, decodeFrom_flatMap]
  simp [Except.map]

theorem ne_zero_of_mem_ofChar {c : Char} (hc : c ≠ '\x00') {u : UInt16} (hu : u ∈ ofChar c) : u ≠ 0 := by
  have h0 : c.toNat ≠ 0 := fun h => hc (Char.toNat_inj.1 h)
  have hnat : u.toNat ≠ 0 := by
    rw [ofChar] at hu
    split at hu
    · next hplane =>
      rw [List.mem_singleton.1 hu, UInt16.toNat_ofNat_of_lt' hplane]
      exact h0
    · next hplane =>
      obtain ⟨hfirst, hsecond⟩ := pair_toNat c hplane
      rcases List.mem_cons.1 hu with rfl | hu
      · rw [hfirst]
        omega
      · rw [List.mem_singleton.1 hu, hsecond]
        omega
  intro h
  exact hnat (by rw [h]; rfl)

end Units

/-! ## The order of enumeration -/

namespace Object

theorem insertByIndex_perm (entry : Nat × PropertyKey) (entries : List (Nat × PropertyKey)) :
    (insertByIndex entry entries).Perm (entry :: entries) := by
  induction entries with
  | nil => exact .refl _
  | cons e rest ih =>
    rw [insertByIndex]
    split
    · exact .refl _
    · exact (ih.cons e).trans (.swap entry e rest)

theorem insertByIndex_sorted (entry : Nat × PropertyKey) {entries : List (Nat × PropertyKey)}
    (h : entries.Pairwise fun a b => a.1 ≤ b.1) :
    (insertByIndex entry entries).Pairwise fun a b => a.1 ≤ b.1 := by
  induction entries with
  | nil => simp [insertByIndex]
  | cons e rest ih =>
    obtain ⟨hfirst, hrest⟩ := List.pairwise_cons.1 h
    rw [insertByIndex]
    split
    · next hlt =>
      refine List.pairwise_cons.2 ⟨fun a ha => ?_, h⟩
      rcases List.mem_cons.1 ha with rfl | ha
      · exact Nat.le_of_lt hlt
      · exact Nat.le_trans (Nat.le_of_lt hlt) (hfirst a ha)
    · next hge =>
      refine List.pairwise_cons.2 ⟨fun a ha => ?_, ih hrest⟩
      rcases List.mem_cons.1 ((insertByIndex_perm entry rest).subset ha) with rfl | ha
      · exact Nat.le_of_not_lt hge
      · exact hfirst a ha

end Object

namespace PropertyKey

def text? : PropertyKey → Option Units
  | text t => some t
  | symbol _ => none

/-- The text keys among some keys. -/
def texts (keys : List PropertyKey) : List Units := keys.filterMap text?

/-- The keys that are array indices, with their indices. -/
def indexed (keys : List PropertyKey) : List (Nat × PropertyKey) :=
  keys.filterMap fun k => k.index?.map fun i => (i, k)

theorem texts_append (keys keys' : List PropertyKey) : texts (keys ++ keys') = texts keys ++ texts keys' :=
  List.filterMap_append

theorem texts_indexed (keys : List PropertyKey) :
    texts ((indexed keys).map Prod.snd) = (texts keys).filter (·.arrayIndex?.isSome) := by
  induction keys with
  | nil => rfl
  | cons k rest ih =>
    cases k with
    | symbol n => exact ih
    | text t => cases h : t.arrayIndex? <;> simp_all [texts, indexed, text?, index?]

theorem texts_others (keys : List PropertyKey) :
    texts ((keys.filter (·.index?.isNone)).filter (!·.isSymbol)) =
      (texts keys).filter (·.arrayIndex?.isNone) := by
  induction keys with
  | nil => rfl
  | cons k rest ih =>
    cases k with
    | symbol n =>
      have hskip : texts (symbol n :: rest) = texts rest := rfl
      rw [hskip, ← ih]
      rfl
    | text t => cases h : t.arrayIndex? <;> simp_all [texts, text?, index?, isSymbol]

theorem texts_symbols (keys : List PropertyKey) : texts (keys.filter (·.isSymbol)) = [] := by
  rw [texts, List.filterMap_eq_nil_iff]
  intro k hk
  cases k with
  | text t => simp [isSymbol] at hk
  | symbol n => rfl

end PropertyKey

namespace Object

open PropertyKey

/-- The keys of the enumerable properties in the order in which these were made. A wrapped text has its
units. -/
def madeKeys (o : Object) : List PropertyKey :=
  (match o.kind with
    | .wrapper (.text t) => (List.range t.length).map PropertyKey.ofIndex
    | _ => []) ++ (o.properties.filter Property.enumerable).map Property.key

theorem enumerableKeys_eq (o : Object) : o.enumerableKeys =
    ((indexed o.madeKeys).foldr insertByIndex []).map Prod.snd ++
      (o.madeKeys.filter (·.index?.isNone)).filter (!·.isSymbol) ++
        (o.madeKeys.filter (·.index?.isNone)).filter (·.isSymbol) := rfl

theorem foldr_insertByIndex (entries : List (Nat × PropertyKey)) :
    (entries.foldr insertByIndex []).Perm entries ∧
      (entries.foldr insertByIndex []).Pairwise fun a b => a.1 ≤ b.1 := by
  induction entries with
  | nil => exact ⟨.refl _, .nil⟩
  | cons entry rest ih =>
    exact ⟨(insertByIndex_perm entry _).trans (ih.1.cons entry), insertByIndex_sorted entry ih.2⟩

/-- Some keys list those that were made: array indices come first, in ascending order, and then the others
as they were made. -/
def Enumerates (made keys : List Units) : Prop :=
  ∃ indices : List Units, keys = indices ++ made.filter (·.arrayIndex?.isNone) ∧
    indices.Perm (made.filter (·.arrayIndex?.isSome)) ∧
      indices.Pairwise fun a b => ∀ i ∈ a.arrayIndex?, ∀ j ∈ b.arrayIndex?, i ≤ j

theorem enumerableKeys_enumerates (o : Object) :
    Enumerates (texts o.madeKeys) (texts o.enumerableKeys) := by
  obtain ⟨hperm, hsorted⟩ := foldr_insertByIndex (indexed o.madeKeys)
  refine ⟨texts (((indexed o.madeKeys).foldr insertByIndex []).map Prod.snd), ?_, ?_, ?_⟩
  · rw [enumerableKeys_eq, texts_append, texts_append, texts_others, texts_symbols, List.append_nil]
  · rw [← texts_indexed]
    exact (hperm.map Prod.snd).filterMap _
  · have hindex (e : Nat × PropertyKey) (he : e ∈ (indexed o.madeKeys).foldr insertByIndex []) :
        e.2.index? = some e.1 := by
      obtain ⟨k, _, hk⟩ := List.mem_filterMap.1 (hperm.subset he)
      obtain ⟨i, hi, rfl⟩ := Option.map_eq_some_iff.1 hk
      exact hi
    rw [texts, List.pairwise_filterMap, List.pairwise_map]
    refine List.Pairwise.imp_of_mem (fun {a b} ha hb hle t ht u hu i hi j hj => ?_) hsorted
    have hplace {e : Nat × PropertyKey} (he : e.2.index? = some e.1) {t : Units}
        (ht : text? e.2 = some t) {i : Nat} (hi : t.arrayIndex? = some i) : i = e.1 := by
      obtain ⟨n, k⟩ := e
      cases k with
      | text t' =>
        cases ht
        exact Option.some.inj (hi.symm.trans he)
      | symbol id => cases ht
    rw [hplace (hindex a ha) ht hi, hplace (hindex b hb) hu hj]
    exact hle

end Object

end ProxySession
