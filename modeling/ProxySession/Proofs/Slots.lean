import Mathlib.Data.Multiset.UnionInter
import ProxySession.Custodian

/-!
# Occupied slots

The slots of a custodian that hold a value, by their numbers. Retaining occupies the slot behind the
last one, releasing frees one, and nothing else moves.
-/

namespace ProxySession

namespace Custodian

variable {ρ : Type} {c : Custodian ρ}

/-- The numbers of the slots that hold a value. -/
def occupied (c : Custodian ρ) : Multiset Nat :=
  ((c.slots.toList.zipIdx.filter fun s => s.1.isSome).map Prod.snd : List Nat)

theorem mem_occupied {i : Nat} : i ∈ c.occupied ↔ ∃ v, c.slots[i]? = some (some v) := by
  simp only [occupied, Multiset.mem_coe, List.mem_map, List.mem_filter, Prod.exists,
    exists_eq_right, List.mem_zipIdx_iff_getElem?, Array.getElem?_toList]
  constructor
  · rintro ⟨_ | v, h, hs⟩
    · simp at hs
    · exact ⟨v, h⟩
  · rintro ⟨v, h⟩
    exact ⟨some v, h, rfl⟩

theorem occupied_nodup (c : Custodian ρ) : c.occupied.Nodup := by
  have hs : (c.slots.toList.zipIdx.map Prod.snd).Nodup := by
    rw [List.zipIdx_map_snd]
    exact List.nodup_range'
  exact Multiset.coe_nodup.2 (hs.sublist (List.filter_sublist.map _))

/-- The number of handles that are alive is the number of occupied slots. -/
theorem card_occupied (c : Custodian ρ) : c.occupied.card = c.liveHandles := by
  rw [occupied, Multiset.coe_card, List.length_map, ← List.countP_eq_length_filter, liveHandles,
    ← Array.countP_toList]
  have hm := List.countP_map (p := Option.isSome) (f := Prod.fst) (l := c.slots.toList.zipIdx)
  rw [List.zipIdx_map_fst] at hm
  rw [hm]
  rfl

theorem occupied_push (v : Value) :
    occupied { c with slots := c.slots.push (some v) } = c.slots.size ::ₘ c.occupied := by
  have hlast : ([some v].zipIdx (0 + c.slots.toList.length)).filter (fun s => s.1.isSome) =
      [(some v, c.slots.size)] := by
    simp
  simp only [occupied, Array.toList_push, List.zipIdx_append, List.filter_append, List.map_append,
    ← Multiset.coe_add]
  rw [Multiset.add_comm, hlast]
  rfl

theorem liveHandles_push (v : Value) :
    liveHandles { c with slots := c.slots.push (some v) } = c.liveHandles + 1 := by
  rw [liveHandles, Array.countP_push]
  rfl

theorem getElem?_release {i j : Nat} {v : Value} (h : c.slots[i]? = some (some v)) :
    (c.slots.setIfInBounds i none)[j]? = if i = j then some none else c.slots[j]? := by
  have hi : i < c.slots.size := (Array.getElem?_eq_some_iff.1 h).1
  rw [Array.getElem?_setIfInBounds, if_pos hi]

theorem occupied_release {i : Nat} {v : Value} (h : c.slots[i]? = some (some v)) :
    c.occupied = i ::ₘ occupied { c with slots := c.slots.setIfInBounds i none } := by
  have hmem (j : Nat) : j ∈ occupied { c with slots := c.slots.setIfInBounds i none } ↔
      i ≠ j ∧ j ∈ c.occupied := by
    simp only [mem_occupied, getElem?_release h]
    by_cases hj : i = j
    · simp [hj]
    · simp [hj]
  have hi : i ∉ occupied { c with slots := c.slots.setIfInBounds i none } := fun hm =>
    ((hmem i).1 hm).1 rfl
  refine (Multiset.Nodup.ext (occupied_nodup c)
    (Multiset.nodup_cons.2 ⟨hi, occupied_nodup _⟩)).2 fun j => ?_
  rw [Multiset.mem_cons, hmem]
  by_cases hj : j = i
  · subst hj
    exact ⟨fun _ => .inl rfl, fun _ => mem_occupied.2 ⟨v, h⟩⟩
  · exact ⟨fun hm => .inr ⟨Ne.symm hj, hm⟩, fun hm => (hm.resolve_left hj).2⟩

theorem liveHandles_release {i : Nat} {v : Value} (h : c.slots[i]? = some (some v)) :
    c.liveHandles = liveHandles { c with slots := c.slots.setIfInBounds i none } + 1 := by
  rw [← card_occupied, occupied_release h, Multiset.card_cons, card_occupied]

theorem get_of_holds {id : HandleId} {v : Value} (ho : c.closed = false)
    (h : c.slots[id.index.toNat]? = some (some v)) : c.get id = .ok v := by
  rw [get, if_neg (by simp [ho]), h]

theorem get_ok {id : HandleId} {v : Value} (h : c.get id = .ok v) :
    c.closed = false ∧ c.slots[id.index.toNat]? = some (some v) := by
  rw [get] at h
  split at h
  · cases h
  · next hc =>
    split at h
    · next hslot =>
      cases h
      exact ⟨by simpa using hc, hslot⟩
    · cases h
    · cases h

theorem release_of_holds {id : HandleId} {v : Value} (ho : c.closed = false)
    (h : c.slots[id.index.toNat]? = some (some v)) :
    c.release id = .ok { c with slots := c.slots.setIfInBounds id.index.toNat none } := by
  rw [release, if_neg (by simp [ho]), h]

end Custodian

end ProxySession
