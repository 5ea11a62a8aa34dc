import ProxySession.Proofs.Resurfacing

/-!
# One step after the other

A loop over the indices from 0 on runs its steps in order and ends at the first one that stops. The list
conversion is such a loop, as long as what its steps give keeps nothing alive.
-/

namespace ProxySession

open Effect

variable {ε α : Type} {step : Nat → Effect ε α} {E : Engine} {w w₁ w₂ : World} {n : Nat}

/-- What is so in each place of a list, and of one more element in the place after it, is so in each place of
the longer list. -/
theorem forall_getElem_concat {P : Nat → α → Prop} {as : List α} {a : α}
    (h : ∀ i (hi : i < as.length), P i as[i]) (hlast : P as.length a) (i : Nat)
    (hi : i < (as ++ [a]).length) : P i (as ++ [a])[i] := by
  rcases Nat.lt_or_ge i as.length with hlt | hge
  · rw [List.getElem_append_left hlt]
    exact h i hlt
  · obtain rfl : i = as.length := by
      rw [List.length_append, List.length_singleton] at hi
      omega
    rw [List.getElem_concat_length rfl]
    exact hlast

/-- The first steps run one after the other: their results, and the world that they reach. -/
inductive Visited (step : Nat → Effect ε α) (E : Engine) (w : World) : List α → World → Prop
  | start : Visited step E w [] w
  | next {as : List α} {w₁ : World} {a : α} {w₂ : World} : Visited step E w as w₁ →
      step as.length E w₁ = (.ok a, w₂) → Visited step E w (as ++ [a]) w₂

/-- How a loop of `n` steps ends: after all of them, or at the first one that stops. -/
inductive Visits (step : Nat → Effect ε α) (E : Engine) (w : World) (n : Nat) :
    Except (Stop ε) (List α) × World → Prop
  | done {as : List α} {w₁ : World} : Visited step E w as w₁ → as.length = n →
      Visits step E w n (.ok as, w₁)
  | stopped {as : List α} {w₁ : World} {s : Stop ε} {w₂ : World} : Visited step E w as w₁ →
      as.length < n → step as.length E w₁ = (.error s, w₂) → Visits step E w n (.error s, w₂)

namespace Visited

theorem nil {as : List α} (h : Visited step E w as w₁) (hn : as.length = 0) : as = [] ∧ w₁ = w := by
  cases h with
  | start => exact ⟨rfl, rfl⟩
  | next hbefore _ => simp at hn

/-- The last step, if there is one. -/
theorem last {as : List α} (h : Visited step E w as w₁) (hn : as.length = n + 1) :
    ∃ bs w₀ b, as = bs ++ [b] ∧ bs.length = n ∧ Visited step E w bs w₀ ∧
      step n E w₀ = (.ok b, w₁) := by
  cases h with
  | start => simp at hn
  | @next bs w₀ b _ hbefore hstep =>
    obtain rfl : bs.length = n := by simpa using hn
    exact ⟨bs, w₀, b, rfl, rfl, hbefore, hstep⟩

/-- What no step lowers was not lowered. -/
theorem monotone {m : World → Nat} {as : List α} (h : Visited step E w as w₁)
    (hstep : ∀ i w, m w ≤ m (step i E w).2) : m w ≤ m w₁ := by
  induction h with
  | start => exact Nat.le_refl _
  | @next as w₁ a w₂ _ hrun ih =>
    have hlast := hstep as.length w₁
    rw [hrun] at hlast
    exact Nat.le_trans ih hlast

/-- As many steps always lead to the same results and the same world. -/
theorem unique {as bs : List α} (h₁ : Visited step E w as w₁) (h₂ : Visited step E w bs w₂)
    (hn : as.length = bs.length) : as = bs ∧ w₁ = w₂ := by
  induction h₁ generalizing bs w₂ with
  | start => exact (h₂.nil hn.symm).imp Eq.symm Eq.symm
  | next hbefore hstep ih =>
    obtain ⟨cs, w₀, b, rfl, hlength, hbefore', hstep'⟩ := h₂.last (by simpa using hn.symm)
    obtain ⟨rfl, rfl⟩ := ih hbefore' hlength.symm
    rw [hstep] at hstep'
    cases hstep'
    exact ⟨rfl, rfl⟩

/-- Steps that leave the world as it is, if they succeed, all run in that world. -/
theorem stays {P : Nat → α → Prop} {as : List α} (h : Visited step E w as w₁) (hn : as.length ≤ n)
    (hstep : ∀ i a w₂, i < n → step i E w = (.ok a, w₂) → w₂ = w ∧ P i a) :
    w₁ = w ∧ ∀ i (hi : i < as.length), P i as[i] := by
  induction h with
  | start => exact ⟨rfl, nofun⟩
  | @next as w₁ a w₂ _ hrun ih =>
    rw [List.length_append, List.length_singleton] at hn
    obtain ⟨rfl, hall⟩ := ih (by omega)
    obtain ⟨rfl, hlast⟩ := hstep as.length a w₂ (by omega) hrun
    exact ⟨rfl, forall_getElem_concat hall hlast⟩

/-- Any number of the steps was run on the way. -/
theorem take {as : List α} (h : Visited step E w as w₁) (hn : n ≤ as.length) :
    ∃ w₀, Visited step E w (as.take n) w₀ := by
  induction h with
  | start => exact ⟨w, by rw [List.take_nil]; exact .start⟩
  | @next as w₁ a w₂ hbefore hstep ih =>
    rcases Nat.lt_or_ge as.length n with hlt | hle
    · have hall : n = (as ++ [a]).length := by
        rw [List.length_append, List.length_singleton] at hn ⊢
        omega
      rw [hall, List.take_length]
      exact ⟨w₂, hbefore.next hstep⟩
    · rw [List.take_append_of_le_length hle]
      exact ih hle

/-- Each step was run in the world that the earlier ones reached. -/
theorem at_step {as : List α} (h : Visited step E w as w₁) (hn : n < as.length) :
    ∃ w₀ w₂, Visited step E w (as.take n) w₀ ∧ step n E w₀ = (.ok as[n], w₂) ∧
      Visited step E w (as.take (n + 1)) w₂ := by
  obtain ⟨w₂, hnext⟩ := h.take hn
  obtain ⟨bs, w₀, b, hbs, hlength, hbefore, hstep⟩ := hnext.last (List.length_take_of_le hn)
  rw [List.take_succ_eq_append_getElem hn] at hbs
  obtain ⟨rfl, hb⟩ := List.append_inj hbs (by rw [hlength, List.length_take_of_le hn.le])
  obtain rfl : as[n] = b := by simpa using hb
  exact ⟨w₀, w₂, hbefore, hstep, hnext⟩

/-- No step runs after one that stops. -/
theorem length_le {as bs : List α} {s : Stop ε} {w₃ : World} (h : Visited step E w as w₁)
    (hstop : step as.length E w₁ = (.error s, w₂)) (h' : Visited step E w bs w₃) :
    bs.length ≤ as.length := by
  by_contra hlt
  have hlt : as.length < bs.length := Nat.lt_of_not_le hlt
  obtain ⟨w₀, _, hbefore, hstep, _⟩ := h'.at_step hlt
  obtain ⟨-, rfl⟩ := hbefore.unique h (List.length_take_of_le hlt.le)
  rw [hstop] at hstep
  cases hstep

end Visited

namespace Visits

variable {r r' : Except (Stop ε) (List α) × World}

/-- A loop has one end. -/
theorem unique (h : Visits step E w n r) (h' : Visits step E w n r') : r = r' := by
  cases h with
  | done hv hn =>
    cases h' with
    | done hv' hn' =>
      obtain ⟨rfl, rfl⟩ := hv.unique hv' (hn.trans hn'.symm)
      rfl
    | stopped hv' hlt hstop =>
      have hle := hv'.length_le hstop hv
      omega
  | stopped hv hlt hstop =>
    cases h' with
    | done hv' hn' =>
      have hle := hv.length_le hstop hv'
      omega
    | stopped hv' hlt' hstop' =>
      have hsame := Nat.le_antisymm (hv'.length_le hstop' hv) (hv.length_le hstop hv')
      obtain ⟨rfl, rfl⟩ := hv.unique hv' hsame
      rw [hstop] at hstop'
      cases hstop'
      rfl

end Visits

/-! ## Loops -/

/-- What keeps nothing alive is given up without a trace. -/
theorem World.drop_of_references {item : Item} (h : item.references = []) : World.drop item = id := by
  funext w
  rw [World.drop_eq_foldl, h]
  rfl

theorem Effect.collect_cons {β : Type} (f : β → Effect ε α) (b : β) (rest : List β) :
    collect f (b :: rest) = f b >>= fun a => List.cons a <$> collect f rest := rfl

theorem Effect.collect_cons_of_ok {β : Type} {f : β → Effect ε α} {b : β} {rest : List β} {a : α} {as : List α}
    (hfirst : f b E w = (.ok a, w₁)) (hrest : collect f rest E w₁ = (.ok as, w₂)) :
    collect f (b :: rest) E w = (.ok (a :: as), w₂) := by
  rw [collect_cons, bind_of_ok hfirst, map_eq, hrest]
  rfl

theorem Effect.collect_cons_ok {β : Type} {f : β → Effect ε α} {b : β} {rest : List β} {as : List α}
    (h : collect f (b :: rest) E w = (.ok as, w₂)) : ∃ a w₁ as', f b E w = (.ok a, w₁) ∧
      collect f rest E w₁ = (.ok as', w₂) ∧ as = a :: as' := by
  rw [collect_cons] at h
  obtain ⟨a, w₁, hfirst, h⟩ := bind_ok h
  obtain ⟨as', hrest, rfl⟩ := map_ok h
  exact ⟨a, w₁, as', hfirst, hrest, rfl⟩

theorem Effect.collect_map {β γ : Type} (g : α → γ) (f : β → Effect ε α) (bs : List β) :
    collect (fun b => g <$> f b) bs = List.map g <$> collect f bs := by
  induction bs with
  | nil => rfl
  | cons b rest ih =>
    funext E w
    rw [collect_cons, collect_cons, ih, map_eq]
    rcases hf : f b E w with ⟨s | a, w'⟩
    · rw [bind_of_error hf, bind_of_error (by rw [map_eq, hf]; rfl)]
      rfl
    · rw [bind_of_ok hf, bind_of_ok (a := g a) (by rw [map_eq, hf]; rfl), map_map, map_eq, map_eq]
      rcases collect f rest E w' with ⟨s | as, w₂⟩ <;> rfl

/-- Collecting over two lists of which each element has its result is collecting over one and then over the
other. -/
theorem Effect.collect_append_ok {β : Type} {f : β → Effect ε α} {g : β → α} {bs cs : List β}
    (h : collect f (bs ++ cs) E w = (.ok ((bs ++ cs).map g), w₂)) :
    ∃ w₁, collect f bs E w = (.ok (bs.map g), w₁) ∧ collect f cs E w₁ = (.ok (cs.map g), w₂) := by
  induction bs generalizing w with
  | nil => exact ⟨w, rfl, h⟩
  | cons b bs ih =>
    obtain ⟨_, w₁, _, hfirst, hrest, hresult⟩ := collect_cons_ok h
    obtain ⟨rfl, rfl⟩ := List.cons.inj hresult
    obtain ⟨w₃, hbs, hcs⟩ := ih hrest
    exact ⟨w₃, collect_cons_of_ok hfirst hbs, hcs⟩

/-- From wherever the first steps lead, collecting the results of the others goes on with the loop. -/
theorem Visited.collect_rest {as : List α} (hv : Visited step E w as w₁) (n : Nat) :
    Visits step E w (as.length + n)
      ((collect step (List.range' as.length n) E w₁).1.map (as ++ ·),
        (collect step (List.range' as.length n) E w₁).2) := by
  induction n generalizing as w₁ with
  | zero =>
    have hnil : collect step (List.range' as.length 0) E w₁ = (.ok [], w₁) := rfl
    rw [hnil]
    exact .done (by simpa using hv) (by simp)
  | succ n ih =>
    rw [List.range'_succ, collect_cons]
    rcases hstep : step as.length E w₁ with ⟨s | a, w₂⟩
    · rw [bind_of_error hstep]
      exact .stopped hv (by omega) hstep
    · have h := ih (hv.next hstep)
      rw [List.length_append, List.length_singleton, Nat.add_assoc, Nat.add_comm 1] at h
      rw [bind_of_ok hstep, map_eq]
      rcases hrest : collect step (List.range' (as.length + 1) n) E w₂ with ⟨s | bs, w₃⟩
      · rw [hrest] at h
        exact h
      · rw [hrest] at h
        simpa [Except.map] using h

/-- Collecting the results of the steps in order is the loop. -/
theorem Effect.collect_visits (step : Nat → Effect ε α) (E : Engine) (w : World) (n : Nat) :
    Visits step E w n (collect step (List.range n) E w) := by
  have hstart : Visited step E w [] w := .start
  have h := hstart.collect_rest n
  rw [List.length_nil, Nat.zero_add, ← List.range_eq_range'] at h
  rcases hr : collect step (List.range n) E w with ⟨s | as, w₁⟩ <;> (rw [hr] at h; exact h)

theorem Effect.collect_of_map {β γ : Type} (f : β → Effect ε α) (g : γ → β) (cs : List γ) :
    collect f (cs.map g) = collect (fun c => f (g c)) cs := by
  induction cs with
  | nil => rfl
  | cons c cs ih => rw [List.map_cons, collect_cons, collect_cons, ih]

/-- Collecting over a list is a loop over its places. -/
theorem Effect.collect_list_visits {β : Type} [Inhabited β] (f : β → Effect ε α) (bs : List β)
    (E : Engine) (w : World) :
    Visits (fun i => f (bs.getD i default)) E w bs.length (collect f bs E w) := by
  have hbs : bs = (List.range bs.length).map fun i => bs.getD i default := by
    refine List.ext_getElem (by simp) fun i hi _ => ?_
    simp [List.getD_eq_getElem?_getD, hi]
  have hrun := collect_of_map f (fun i => bs.getD i default) (List.range bs.length)
  rw [← hbs] at hrun
  rw [hrun]
  exact collect_visits _ E w bs.length

namespace Conversion

variable {c : ContextId} {drop : α → World → World} {convert : Conversion α} {r : ObjectRef}

theorem toArray_of_array {length : Nat} (hv : w.heap.arrayLength? (.object r) = some length) :
    toArray (.object r) E w = (.ok (r, length), w) := by
  rw [toArray, world_bind, hv]
  rfl

theorem toArray_of_none {v : Value} (hv : w.heap.arrayLength? v = none) :
    toArray v E w = (.error (.failed (.shapeMismatch "array" (w.heap.typeName v))), w) := by
  rw [toArray, world_bind, hv]
  cases v <;> rfl

/-- The step of a list conversion at an index. -/
def listStep (c : ContextId) (convert : Conversion α) (r : ObjectRef) (i : Nat) : Operation α :=
  Effect.located (elementSite i) do required convert (← c.element r i)

/-- What a step gives is what some value converts to. -/
theorem listStep_ok {i : Nat} {a : α} (h : listStep c convert r i E w = (.ok a, w₂)) :
    ∃ v w₁, c.element r i E w = (.ok v, w₁) ∧ v.isAbsent = false ∧ convert v E w₁ = (.ok a, w₂) := by
  rw [listStep, located_eq] at h
  rcases hrun : (c.element r i >>= required convert) E w with ⟨s | a', w'⟩
  · rw [hrun] at h
    cases h
  · rw [hrun] at h
    cases h
    obtain ⟨v, w₁, helement, hconvert⟩ := bind_ok hrun
    rw [required] at hconvert
    split at hconvert
    · cases hconvert
    · exact ⟨v, w₁, helement, Bool.eq_false_iff.2 ‹_›, hconvert⟩

theorem listStep_map {β : Type} (g : α → β) (convert : Conversion α) (r : ObjectRef) (i : Nat) :
    listStep c (fun v => g <$> convert v) r i = g <$> listStep c convert r i := by
  funext E w
  rw [map_eq, listStep, listStep, located_eq, located_eq]
  rcases helement : c.element r i E w with ⟨s | v, w₁⟩
  · rw [bind_of_error helement, bind_of_error helement]
    rfl
  · rw [bind_of_ok helement, bind_of_ok helement, required, required]
    split
    · rfl
    · rw [map_eq]
      rcases convert v E w₁ with ⟨s | a, w₂⟩ <;> rfl

theorem elements_succ (c : ContextId) (drop : α → World → World) (convert : Conversion α)
    (r : ObjectRef) (count i : Nat) :
    elements c drop convert r (count + 1) i = listStep c convert r i >>= fun a =>
      List.cons a <$> (elements c drop convert r count (i + 1)).onStop (drop a) := rfl

/-- What keeps nothing alive need not be given up. -/
theorem elements_eq_collect
    (hdrop : ∀ i E w a w', listStep c convert r i E w = (.ok a, w') → drop a = id) (count i : Nat) :
    elements c drop convert r count i = collect (listStep c convert r) (List.range' i count) := by
  induction count generalizing i with
  | zero => rfl
  | succ count ih =>
    funext E w
    rw [List.range'_succ, elements_succ, collect_cons, ih]
    rcases hstep : listStep c convert r i E w with ⟨s | a, w'⟩
    · rw [bind_of_error hstep, bind_of_error hstep]
    · rw [bind_of_ok hstep, bind_of_ok hstep, hdrop i E w a w' hstep, map_eq, map_eq, onStop]
      rcases collect (listStep c convert r) (List.range' (i + 1) count) E w' with ⟨s | as, w₂⟩ <;> rfl

theorem elements_visits
    (hdrop : ∀ i E w a w', listStep c convert r i E w = (.ok a, w') → drop a = id)
    (E : Engine) (w : World) (n : Nat) :
    Visits (listStep c convert r) E w n (elements c drop convert r n 0 E w) := by
  rw [elements_eq_collect hdrop, ← List.range_eq_range']
  exact collect_visits _ E w n

end Conversion

end ProxySession
