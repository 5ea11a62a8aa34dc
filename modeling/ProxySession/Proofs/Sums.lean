import Mathlib.Algebra.BigOperators.Group.Multiset.Basic
import ProxySession.Session.World

/-!
# Sums over what is held

`total f xs` adds up what each element of an array counts for. An update of one element changes one
summand, a push adds one.
-/

namespace ProxySession

section Total

variable {α M : Type} [AddCommMonoid M]

def total (f : α → M) (xs : Array α) : M := (xs.toList.map f).sum

theorem total_push (f : α → M) (xs : Array α) (x : α) :
    total f (xs.push x) = total f xs + f x := by
  simp [total]

theorem sum_modify (f : α → M) (g : α → α) (d : α) :
    (xs : List α) → (i : Nat) → i < xs.length →
      ((xs.modify i g).map f).sum + f (xs.getD i d) = (xs.map f).sum + f (g (xs.getD i d))
  | x :: xs, 0, _ => by
    simp only [List.modify_zero_cons, List.map_cons, List.sum_cons, List.getD_cons_zero]
    rw [add_right_comm, add_comm (f (g x)), add_right_comm (f x)]
  | x :: xs, i + 1, h => by
    have ih := sum_modify f g d xs i (by simpa using h)
    simp only [List.modify_succ_cons, List.map_cons, List.sum_cons, List.getD_cons_succ]
    rw [add_assoc, ih, add_assoc]

/-- An update exchanges one summand. -/
theorem total_modify (f : α → M) (g : α → α) (d : α) {xs : Array α} {i : Nat} (h : i < xs.size) :
    total f (xs.modify i g) + f (xs.getD i d) = total f xs + f (g (xs.getD i d)) := by
  have hd : xs.getD i d = xs.toList.getD i d := by simp
  rw [total, Array.toList_modify, hd]
  exact sum_modify f g d xs.toList i (by simpa using h)

/-- An update that leaves the summand of the element as it is leaves the sum. -/
theorem total_modify_same {f : α → M} {g : α → α} {xs : Array α} {i : Nat} {d : α}
    (h : f (g (xs.getD i d)) = f (xs.getD i d)) : total f (xs.modify i g) = total f xs := by
  have hmap : (xs.modify i g).toList.map f = xs.toList.map f := by
    rw [Array.toList_modify]
    apply List.ext_getElem
    · simp
    · intro j hj _
      have hj' : j < xs.size := by simpa using hj
      simp only [List.getElem_map, List.getElem_modify]
      split
      · next he =>
        subst he
        simpa [Array.getD, hj'] using h
      · rfl
  rw [total, hmap, total]

theorem total_eq_zero {f : α → M} {xs : Array α} (h : ∀ i d, i < xs.size → f (xs.getD i d) = 0) :
    total f xs = 0 := by
  apply List.sum_eq_zero
  intro y hy
  obtain ⟨x, hx, rfl⟩ := List.mem_map.1 hy
  obtain ⟨i, hi, rfl⟩ := List.mem_iff_getElem.1 hx
  have := h i xs[i] (by simpa using hi)
  simpa [Array.getD, show i < xs.size by simpa using hi] using this

theorem mem_total {α β : Type} {f : α → Multiset β} {xs : Array α} {b : β} :
    b ∈ total f xs ↔ ∃ x ∈ xs.toList, b ∈ f x := by
  rw [total]
  induction xs.toList with
  | nil => simp
  | cons x rest ih => simp [ih]

end Total

section GetD

variable {α : Type} {d : α}

/-- An update depends on what it does to the element alone. -/
theorem modify_congr {xs : Array α} {i : Nat} {f g : α → α}
    (h : f (xs.getD i d) = g (xs.getD i d)) : xs.modify i f = xs.modify i g := by
  apply Array.ext
  · simp
  · intro j hj _
    rw [Array.size_modify] at hj
    simp only [Array.getElem_modify]
    split
    · next he =>
      subst he
      simpa [Array.getD, hj] using h
    · rfl

theorem modify_eq_self {xs : Array α} {i : Nat} {f : α → α} (h : f (xs.getD i d) = xs.getD i d) :
    xs.modify i f = xs := by
  rw [modify_congr (g := id) h]
  apply Array.ext
  · simp
  · intro j _ _
    simp [Array.getElem_modify]

theorem getD_modify (xs : Array α) (i j : Nat) (f : α → α) :
    (xs.modify i f).getD j d = if i = j ∧ j < xs.size then f (xs.getD j d) else xs.getD j d := by
  by_cases hj : j < xs.size
  · by_cases hi : i = j
    · subst hi
      simp [Array.getD, hj, Array.getElem_modify_self]
    · simp [Array.getD, hj, hi, Array.getElem_modify]
  · simp [Array.getD, hj]

theorem getD_setIfInBounds {xs : Array α} {i : Nat} (x : α) (j : Nat) (hi : i < xs.size) :
    (xs.setIfInBounds i x).getD j d = if i = j then x else xs.getD j d := by
  rw [Array.getD_eq_getD_getElem?, Array.getElem?_setIfInBounds, if_pos hi]
  split
  · rfl
  · rw [Array.getD_eq_getD_getElem?]

theorem getD_push (xs : Array α) (x : α) (j : Nat) :
    (xs.push x).getD j d = if j = xs.size then x else xs.getD j d := by
  by_cases hj : j < xs.size
  · have hn : j ≠ xs.size := by omega
    have hl : j < xs.size + 1 := by omega
    simp [Array.getD, hj, hn, hl, Array.getElem_push]
  · by_cases he : j = xs.size
    · simp [Array.getD, he]
    · have hl : ¬j < xs.size + 1 := by omega
      simp [Array.getD, hj, he, hl]

theorem getD_of_size_le {xs : Array α} {j : Nat} (h : xs.size ≤ j) : xs.getD j d = d := by
  simp [Array.getD, Nat.not_lt.2 h]

/-- Elements are counted by their places. -/
theorem countP_eq_length_filter_range (p : α → Bool) (xs : Array α) :
    xs.countP p = ((List.range xs.size).filter fun i => p (xs.getD i d)).length := by
  have hlist : xs.toList = (List.range xs.size).map fun i => xs.getD i d := by
    refine List.ext_getElem (by simp) fun i hi _ => ?_
    have hi' : i < xs.size := hi
    simp [Array.getD, hi']
  rw [← Array.countP_toList, hlist, List.countP_map, List.countP_eq_length_filter]
  rfl

/-- What a push adds counts for one, and the rest for what it counted. -/
theorem count_push {f : α → Nat} {x : α} (hx : f x = f d + 1) (xs : Array α) (j : Nat) :
    f ((xs.push x).getD j d) = f (xs.getD j d) + if j = xs.size then 1 else 0 := by
  rw [getD_push]
  split
  · next hj => rw [getD_of_size_le (Nat.le_of_eq hj.symm), hx]
  · rfl

end GetD

end ProxySession
