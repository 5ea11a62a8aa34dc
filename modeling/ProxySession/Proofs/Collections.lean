import ProxySession.Proofs.Sums

/-!
# What visitors collect

A visitor keeps the first argument of each of its calls in a collection of its own, and the calls are on
record. While a session goes on, a collection that was there before only grows by what the record tells
of its visitor, and later visitors have later collections.
-/

namespace ProxySession

/-- The argument lists of the calls that went to one collection, in order. -/
def callsOf (collection : Nat) (calls : List (Nat × List Value)) : List (List Value) :=
  calls.filterMap fun call => if call.1 = collection then some call.2 else none

/-- The first argument of each of these calls, if it has one. -/
def givenTo (collection : Nat) (calls : List (Nat × List Value)) : List Value :=
  (callsOf collection calls).filterMap List.head?

theorem givenTo_append (collection : Nat) (calls calls' : List (Nat × List Value)) :
    givenTo collection (calls ++ calls') = givenTo collection calls ++ givenTo collection calls' := by
  rw [givenTo, callsOf, List.filterMap_append, List.filterMap_append]
  rfl

theorem givenTo_single (collection k : Nat) (arguments : List Value) :
    givenTo collection [(k, arguments)] = if k = collection then arguments.head?.toList else [] := by
  by_cases hk : k = collection
  · cases arguments <;> simp [givenTo, callsOf, hk]
  · simp [givenTo, callsOf, hk]

namespace World

variable {w w' w'' : World}

/-- From one world to another, the functions of the host stay, and those that are new collect in new
collections. An old collection has grown by the first arguments of the calls on record since. -/
structure Collects (w w' : World) : Prop where
  functions : ∃ fs, w'.hostFunctions.toList = w.hostFunctions.toList ++ fs ∧
    ∀ f ∈ fs, ∀ k, f.behaviour = .collect k → w.collections.size ≤ k ∧ k < w'.collections.size
  size : w.collections.size ≤ w'.collections.size
  contents : ∃ calls, w'.visits.toList = w.visits.toList ++ calls ∧ ∀ k < w.collections.size,
    w'.collections.getD k [] = w.collections.getD k [] ++ givenTo k calls

namespace Collects

theorem of_same (hf : w'.hostFunctions = w.hostFunctions) (hc : w'.collections = w.collections)
    (hv : w'.visits = w.visits) : w.Collects w' where
  functions := ⟨[], by rw [hf, List.append_nil], nofun⟩
  size := by rw [hc]
  contents := ⟨[], by rw [hv, List.append_nil], fun k _ => by rw [hc]; exact (List.append_nil _).symm⟩

theorem trans (h₁ : w.Collects w') (h₂ : w'.Collects w'') : w.Collects w'' where
  functions := by
    obtain ⟨fs, hfs, hnew⟩ := h₁.functions
    obtain ⟨gs, hgs, hnewer⟩ := h₂.functions
    refine ⟨fs ++ gs, by rw [hgs, hfs, List.append_assoc], fun f hf k hk => ?_⟩
    rcases List.mem_append.1 hf with hf | hf
    · obtain ⟨hle, hlt⟩ := hnew f hf k hk
      exact ⟨hle, Nat.lt_of_lt_of_le hlt h₂.size⟩
    · obtain ⟨hle, hlt⟩ := hnewer f hf k hk
      exact ⟨Nat.le_trans h₁.size hle, hlt⟩
  size := Nat.le_trans h₁.size h₂.size
  contents := by
    obtain ⟨calls, hcalls, hcontents⟩ := h₁.contents
    obtain ⟨calls', hcalls', hcontents'⟩ := h₂.contents
    refine ⟨calls ++ calls', by rw [hcalls', hcalls, List.append_assoc], fun k hk => ?_⟩
    rw [hcontents' k (Nat.lt_of_lt_of_le hk h₁.size), hcontents k hk, givenTo_append, List.append_assoc]

/-- A function of the host stays where it is. -/
theorem function {i : Nat} {f : HostFunction} (h : w.Collects w') (hf : w.hostFunctions[i]? = some f) :
    w'.hostFunctions[i]? = some f := by
  obtain ⟨fs, hfs, -⟩ := h.functions
  have hlt : i < w.hostFunctions.toList.length := by
    rw [Array.length_toList]
    exact (Array.getElem?_eq_some_iff.1 hf).1
  rw [← Array.getElem?_toList, hfs, List.getElem?_append_left hlt, Array.getElem?_toList, hf]

end Collects

theorem visit_hostFunctions (k : Nat) (arguments : List Value) (w : World) :
    (w.visit k arguments).hostFunctions = w.hostFunctions := by
  cases arguments <;> rfl

/-- A call of a visitor is on record, and its first argument is collected. -/
theorem visit_collects (k : Nat) (arguments : List Value) (w : World) :
    w.Collects (w.visit k arguments) where
  functions := ⟨[], by rw [visit_hostFunctions, List.append_nil], nofun⟩
  size := by
    cases arguments with
    | nil => exact Nat.le_refl _
    | cons v rest => exact Nat.le_of_eq Array.size_modify.symm
  contents := by
    refine ⟨[(k, arguments)], ?_, fun i hi => ?_⟩
    · cases arguments <;> exact Array.toList_push
    · rw [givenTo_single]
      cases arguments with
      | nil =>
        have hnone : (if k = i then ([] : List Value).head?.toList else []) = [] := by split <;> rfl
        rw [hnone, List.append_nil]
        rfl
      | cons v rest =>
        have hmodify := getD_modify w.collections k i (d := []) fun vs => vs ++ [v]
        by_cases hk : k = i
        · rw [if_pos hk]
          exact hmodify.trans (if_pos ⟨hk, hi⟩)
        · rw [if_neg hk, List.append_nil]
          exact hmodify.trans (if_neg fun h => hk h.1)

/-- A new collection with its visitor. -/
theorem Collects.opened {f : HostFunction} (hf : f.behaviour = .collect w.collections.size)
    (hfunctions : w'.hostFunctions = w.hostFunctions.push f)
    (hcollections : w'.collections = w.collections.push []) (hvisits : w'.visits = w.visits) :
    w.Collects w' where
  functions := by
    refine ⟨[f], by rw [hfunctions, Array.toList_push], fun g hg k hk => ?_⟩
    rw [List.mem_singleton.1 hg, hf] at hk
    cases hk
    rw [hcollections, Array.size_push]
    exact ⟨Nat.le_refl _, Nat.lt_succ_self _⟩
  size := by
    rw [hcollections, Array.size_push]
    exact Nat.le_succ _
  contents := by
    refine ⟨[], by rw [hvisits, List.append_nil], fun k hk => ?_⟩
    rw [hcollections, getD_push, if_neg (Nat.ne_of_lt hk)]
    exact (List.append_nil _).symm

/-- A new function that collects nothing. -/
theorem Collects.added {f : HostFunction} (hf : ∀ k, f.behaviour ≠ .collect k)
    (hfunctions : w'.hostFunctions = w.hostFunctions.push f)
    (hcollections : w'.collections = w.collections) (hvisits : w'.visits = w.visits) :
    w.Collects w' where
  functions := by
    refine ⟨[f], by rw [hfunctions, Array.toList_push], fun g hg k hk => ?_⟩
    rw [List.mem_singleton.1 hg] at hk
    exact absurd hk (hf k)
  size := by rw [hcollections]
  contents := ⟨[], by rw [hvisits, List.append_nil], fun k _ => by
    rw [hcollections]
    exact (List.append_nil _).symm⟩

/-- Empties a collection. -/
def forget (k : Nat) (w : World) : World := { w with collections := w.collections.setIfInBounds k [] }

/-- What is new may be emptied. -/
theorem Collects.forget {k : Nat} (h : w.Collects w') (hk : w.collections.size ≤ k) :
    w.Collects (w'.forget k) where
  functions := by
    rw [World.forget, Array.size_setIfInBounds]
    exact h.functions
  size := by
    rw [World.forget, Array.size_setIfInBounds]
    exact h.size
  contents := by
    obtain ⟨calls, hcalls, hcontents⟩ := h.contents
    refine ⟨calls, hcalls, fun i hi => ?_⟩
    rw [← hcontents i hi, World.forget, Array.getD_eq_getD_getElem?, Array.getD_eq_getD_getElem?,
      Array.getElem?_setIfInBounds_ne (by omega)]

/-- The visitors collect in collections that are there. -/
def Sheltered (w : World) : Prop :=
  ∀ f ∈ w.hostFunctions, ∀ k, f.behaviour = .collect k → k < w.collections.size

theorem ofHeap_sheltered (heap : Heap) : (ofHeap heap).Sheltered := fun _ hf => absurd hf (Array.not_mem_empty _)

theorem Collects.sheltered (h : w.Collects w') (hw : w.Sheltered) : w'.Sheltered := by
  intro f hf k hk
  obtain ⟨fs, hfs, hnew⟩ := h.functions
  have hmem : f ∈ w.hostFunctions.toList ++ fs := hfs ▸ Array.mem_toList_iff.2 hf
  rcases List.mem_append.1 hmem with hold | hf
  · exact Nat.lt_of_lt_of_le (hw f (Array.mem_toList_iff.1 hold) k hk) h.size
  · exact (hnew f hf k hk).2

end World

end ProxySession
