import Mathlib.Data.Finset.Card
import Mathlib.Data.Finset.Range
import ProxySession.Proofs.Slots

/-!
# The table behind a custodian

Whatever it is asked, a custodian answers like a table that keeps, for each number that was ever handed
out, the value that was retained under it or the fact that this one was given up. The table remembers what
a closed custodian has forgotten.
-/

namespace ProxySession

namespace Custodian

/-- What can be asked of a custodian. What is retained for a handle without a look at it owns something. -/
inductive Action (ρ : Type) where
  | retain (v : Value)
  | retainObject (r : ObjectRef)
  | retainHandle (v : Value) (owning : v.ownsNothing = false)
  | get (id : HandleId)
  | resolve (r : Retained)
  | release (id : HandleId)
  | track (finished : ρ → Bool) (resource : ρ)
  | close

/-- The value that an action would retain. -/
def Action.offered? {ρ : Type} : Action ρ → Option Value
  | retain v | retainHandle v _ => some v
  | retainObject r => some (.object r)
  | get _ | resolve _ | release _ | track _ _ | close => none

/-- What an action is answered when it succeeds; the handles are named by members of `ι`. -/
inductive Answer (ι : Type) where
  /-- The value itself, of which nothing was retained. -/
  | passed (v : Value)
  /-- The value was retained under this name. -/
  | issued (id : ι)
  | value (v : Value)
  | done
deriving DecidableEq

namespace Answer

variable {ι κ : Type}

def map (f : ι → κ) : Answer ι → Answer κ
  | passed v => passed v
  | issued id => issued (f id)
  | value v => value v
  | done => done

/-- The name that an answer hands out, if it is no error and does. -/
def issued? : Except LifetimeError (Answer ι) → Option ι
  | .ok (issued id) => some id
  | .ok (passed _) | .ok (value _) | .ok done | .error _ => none

def ofRetained : Retained → Answer HandleId
  | .primitive v => passed v
  | .handle id => issued id

end Answer

section

variable {ρ σ α : Type} (closing : ρ → StateM σ (Except SessionError Unit))
  (report : Nat → SessionError → StateM σ Unit)

/-- The answer and the custodian that is left. An error leaves the one that was asked. -/
def outcome (c : Custodian ρ) (answer : α → Answer HandleId) :
    Except LifetimeError (α × Custodian ρ) →
      Except LifetimeError (Answer HandleId) × Custodian ρ
  | .ok (a, c') => (.ok (answer a), c')
  | .error e => (.error e, c)

def perform (c : Custodian ρ) :
    Action ρ → StateM σ (Except LifetimeError (Answer HandleId) × Custodian ρ)
  | .retain v => pure (c.outcome .ofRetained (c.retain v))
  | .retainObject r => pure (c.outcome .issued (c.retainHandle (.object r)))
  | .retainHandle v _ => pure (c.outcome .issued (c.retainHandle v))
  | .get id => pure ((c.get id).map .value, c)
  | .resolve r => pure ((c.resolve r).map .value, c)
  | .release id => pure (c.outcome (fun _ => .done) ((c.release id).map fun c => ((), c)))
  | .track finished resource =>
    pure (c.outcome (fun _ => .done) ((c.track finished resource).map fun c => ((), c)))
  | .close => do pure (c.outcome (fun _ => .done) (← c.close closing report))

/-- The answers to actions that follow each other, and the custodian that is left. -/
def performAll (c : Custodian ρ) :
    List (Action ρ) → StateM σ (List (Except LifetimeError (Answer HandleId)) × Custodian ρ)
  | [] => pure ([], c)
  | a :: rest => do
    let (answer, c) ← c.perform closing report a
    let (answers, c) ← performAll c rest
    pure (answer :: answers, c)

end

end Custodian

open Custodian (Action Answer)

/-! ## Tables -/

/-- What has become of a number that was handed out. -/
inductive Entry where
  | live (v : Value)
  | released

def Entry.value? : Entry → Option Value
  | live v => some v
  | released => none

/-- A table of entries for the numbers up to `issued`. When it is closed no entry is live. -/
structure HandleTable where
  name : String
  issued : Nat
  entry : Nat → Option Entry
  closed : Bool
  entry_eq_none : ∀ i, entry i = none ↔ issued ≤ i
  ended : closed = true → ∀ i v, entry i ≠ some (.live v)

namespace HandleTable

variable {ρ σ : Type} {t t' t'' : HandleTable} {i : Nat} {v : Value}

def new (name : String) : HandleTable where
  name
  issued := 0
  entry _ := none
  closed := false
  entry_eq_none := by simp
  ended := by simp

/-- The next number gets a value. -/
def issue (t : HandleTable) (v : Value) (ho : t.closed = false) : HandleTable where
  name := t.name
  issued := t.issued + 1
  entry i := if i = t.issued then some (.live v) else t.entry i
  closed := t.closed
  entry_eq_none i := by
    split
    · simp [*]
    · rw [t.entry_eq_none]
      omega
  ended hc := by simp [ho] at hc

/-- A number is given up. -/
def retire (t : HandleTable) (i : Nat) : HandleTable where
  name := t.name
  issued := t.issued
  entry j := if j = i then (t.entry j).map fun _ => .released else t.entry j
  closed := t.closed
  entry_eq_none j := by
    split
    · rw [Option.map_eq_none_iff, t.entry_eq_none]
    · exact t.entry_eq_none j
  ended hc j v := by
    split
    · simp
    · exact t.ended hc j v

/-- All numbers are given up. -/
def shut (t : HandleTable) : HandleTable where
  name := t.name
  issued := t.issued
  entry i := (t.entry i).map fun _ => .released
  closed := true
  entry_eq_none i := by rw [Option.map_eq_none_iff, t.entry_eq_none]
  ended _ i v := by simp

def take (t : HandleTable) (v : Value) : Except LifetimeError (Answer Nat) × HandleTable :=
  if h : t.closed = true then (.error (.retainAfterClose t.name), t)
  else (.ok (.issued t.issued), t.issue v (Bool.eq_false_of_not_eq_true h))

def get (t : HandleTable) (id : HandleId) : Except LifetimeError (Answer Nat) :=
  if t.closed then .error (.useAfterClose t.name)
  else match t.entry id.index.toNat with
    | some (.live v) => .ok (.value v)
    | some .released => .error (.useAfterClose t.name)
    | none => .error (.unknownHandle t.name id.index)

def release (t : HandleTable) (id : HandleId) : Except LifetimeError (Answer Nat) × HandleTable :=
  if t.closed then (.error (.useAfterClose t.name), t)
  else match t.entry id.index.toNat with
    | some (.live _) => (.ok .done, t.retire id.index.toNat)
    | some .released => (.error (.releasedTwice t.name id.index), t)
    | none => (.error (.unknownHandle t.name id.index), t)

def perform (t : HandleTable) : Action ρ → Except LifetimeError (Answer Nat) × HandleTable
  | .retain v =>
    if t.closed = false ∧ v.ownsNothing = true then (.ok (.passed v), t) else t.take v
  | .retainObject r => t.take (.object r)
  | .retainHandle v _ => t.take v
  | .get id => (t.get id, t)
  | .resolve (.primitive v) => (.ok (.value v), t)
  | .resolve (.handle id) => (t.get id, t)
  | .release id => t.release id
  | .track _ _ => (if t.closed then .error (.retainAfterClose t.name) else .ok .done, t)
  | .close => if t.closed then (.error (.closedTwice t.name), t) else (.ok .done, t.shut)

def performAll (t : HandleTable) :
    List (Action ρ) → List (Except LifetimeError (Answer Nat)) × HandleTable
  | [] => ([], t)
  | a :: rest =>
    let later := (t.perform a).2.performAll rest
    ((t.perform a).1 :: later.1, later.2)

/-- The numbers whose entry is live. -/
def liveIds (t : HandleTable) : Finset Nat :=
  (Finset.range t.issued).filter fun i => ((t.entry i).bind Entry.value?).isSome

/-! ## What a table remembers -/

/-- All that an action can do to a table: nothing, issue the next number, retire one, or shut it. -/
theorem perform_cases (t : HandleTable) (a : Action ρ) :
    ((t.perform a).2 = t ∧ Answer.issued? (t.perform a).1 = none) ∨
    (∃ v ho, a.offered? = some v ∧ t.perform a = (.ok (.issued t.issued), t.issue v ho)) ∨
    (∃ i, t.perform a = (.ok .done, t.retire i)) ∨
    t.closed = false ∧ t.perform a = (.ok .done, t.shut) := by
  have htake (v : Value) (hv : a.offered? = some v) (h : t.perform a = t.take v) :
      ((t.perform a).2 = t ∧ Answer.issued? (t.perform a).1 = none) ∨
      ∃ v ho, a.offered? = some v ∧ t.perform a = (.ok (.issued t.issued), t.issue v ho) := by
    rw [h, take]
    split
    · exact .inl ⟨rfl, rfl⟩
    · next ho => exact .inr ⟨v, Bool.eq_false_of_not_eq_true ho, hv, rfl⟩
  have hget (id : HandleId) : Answer.issued? (t.get id) = none := by
    rw [get]
    split
    · rfl
    · split <;> rfl
  cases a with
  | retain v =>
    by_cases hv : t.closed = false ∧ v.ownsNothing = true
    · rw [perform, if_pos hv]
      exact .inl ⟨rfl, rfl⟩
    · exact (htake v rfl (if_neg hv)).imp_right .inl
  | retainObject r => exact (htake _ rfl rfl).imp_right .inl
  | retainHandle v owning => exact (htake _ rfl rfl).imp_right .inl
  | get id => exact .inl ⟨rfl, hget id⟩
  | resolve r =>
    cases r with
    | primitive v => exact .inl ⟨rfl, rfl⟩
    | handle id => exact .inl ⟨rfl, hget id⟩
  | release id =>
    rw [perform, release]
    split
    · exact .inl ⟨rfl, rfl⟩
    · split
      · exact .inr (.inr (.inl ⟨_, rfl⟩))
      · exact .inl ⟨rfl, rfl⟩
      · exact .inl ⟨rfl, rfl⟩
  | track finished resource =>
    refine .inl ⟨rfl, ?_⟩
    rw [perform]
    split <;> rfl
  | close =>
    rw [perform]
    split
    · exact .inl ⟨rfl, rfl⟩
    · next ho => exact .inr (.inr (.inr ⟨Bool.eq_false_of_not_eq_true ho, rfl⟩))

/-- What was issued stays as it is or is given up, and what was given up stays so. -/
def Follows (t t' : HandleTable) : Prop :=
  ∀ i e, t.entry i = some e → t'.entry i = some e ∨ t'.entry i = some .released

theorem Follows.refl (t : HandleTable) : t.Follows t := fun _ _ => .inl

theorem Follows.trans (h₁ : t.Follows t') (h₂ : t'.Follows t'') : t.Follows t'' := by
  intro i e he
  rcases h₁ i e he with h | h
  · exact h₂ i e h
  · exact .inr ((h₂ i _ h).elim id id)

theorem follows_perform (t : HandleTable) (a : Action ρ) : t.Follows (t.perform a).2 := by
  rcases t.perform_cases a with ⟨h, _⟩ | ⟨v, ho, _, h⟩ | ⟨i, h⟩ | ⟨_, h⟩
  · rw [h]
    exact .refl t
  · rw [h]
    intro i e he
    have hne : i ≠ t.issued := by
      rintro rfl
      rw [(t.entry_eq_none _).2 (Nat.le_refl _)] at he
      cases he
    exact .inl ((if_neg hne).trans he)
  · rw [h]
    intro j e he
    by_cases hj : j = i
    · right
      change (if j = i then _ else _) = _
      rw [if_pos hj, he]
      rfl
    · exact .inl ((if_neg hj).trans he)
  · rw [h]
    intro i e he
    right
    change (t.entry i).map _ = _
    rw [he]
    rfl

theorem performAll_append (t : HandleTable) (before after : List (Action ρ)) :
    (t.performAll (before ++ after)).2 = ((t.performAll before).2.performAll after).2 := by
  induction before generalizing t with
  | nil => rfl
  | cons a rest ih => exact ih (t.perform a).2

theorem follows_performAll (t : HandleTable) (actions : List (Action ρ)) :
    t.Follows (t.performAll actions).2 := by
  induction actions generalizing t with
  | nil => exact .refl t
  | cons a rest ih => exact (t.follows_perform a).trans (ih _)

/-! ## What was retained -/

/-- The value that an action retained, by its answer. -/
def kept {ι : Type} (a : Action ρ) (answer : Except LifetimeError (Answer ι)) : Option Value :=
  (Answer.issued? answer).bind fun _ => a.offered?

/-- The values that actions retained, in order. -/
def keptAll {ι : Type} (actions : List (Action ρ))
    (answers : List (Except LifetimeError (Answer ι))) : List Value :=
  (actions.zip answers).filterMap fun x => kept x.1 x.2

/-- Each number was issued for the value at its place in a list, and lives with that value if at all. -/
structure Recalls (t : HandleTable) (vs : List Value) : Prop where
  length : t.issued = vs.length
  live : ∀ i v, t.entry i = some (.live v) → vs[i]? = some v

theorem Recalls.perform {vs : List Value} (h : t.Recalls vs) (a : Action ρ) :
    (t.perform a).2.Recalls (vs ++ (kept a (t.perform a).1).toList) := by
  have hnone {answer : Except LifetimeError (Answer Nat)} (ha : Answer.issued? answer = none) :
      vs ++ (kept a answer).toList = vs := by
    rw [kept, ha]
    exact List.append_nil vs
  rcases t.perform_cases a with ⟨ht, ha⟩ | ⟨v, ho, hv, ht⟩ | ⟨i, ht⟩ | ⟨_, ht⟩
  · rw [ht, hnone ha]
    exact h
  · rw [ht, kept, hv]
    refine ⟨?_, fun i u hu => ?_⟩
    · change t.issued + 1 = (vs ++ [v]).length
      rw [List.length_append, h.length]
      rfl
    · change (if i = t.issued then _ else _) = _ at hu
      change (vs ++ [v])[i]? = _
      split at hu
      · next hi =>
        cases hu
        rw [hi, h.length]
        simp
      · rw [List.getElem?_append_left (List.getElem?_eq_some_iff.1 (h.live i u hu)).1]
        exact h.live i u hu
  · rw [ht, hnone rfl]
    refine ⟨h.length, fun j u hu => h.live j u ?_⟩
    change (if j = i then _ else _) = _ at hu
    split at hu
    · rcases he : t.entry j with _ | e <;> rw [he] at hu <;> cases hu
    · exact hu
  · rw [ht, hnone rfl]
    refine ⟨h.length, fun j u hu => ?_⟩
    change (t.entry j).map _ = _ at hu
    rcases he : t.entry j with _ | e <;> rw [he] at hu <;> cases hu

theorem recalls_performAll {vs : List Value} (h : t.Recalls vs) (actions : List (Action ρ)) :
    (t.performAll actions).2.Recalls (vs ++ keptAll actions (t.performAll actions).1) := by
  induction actions generalizing t vs with
  | nil =>
    rw [keptAll, List.zip_nil_left, List.filterMap_nil, List.append_nil]
    exact h
  | cons a rest ih =>
    have hrest := ih (h.perform a)
    rw [List.append_assoc] at hrest
    have hsplit : keptAll (a :: rest) (t.performAll (a :: rest)).1 =
        (kept a (t.perform a).1).toList ++
          keptAll rest ((t.perform a).2.performAll rest).1 := by
      rw [performAll, keptAll, List.zip_cons_cons, List.filterMap_cons]
      rcases kept a (t.perform a).1 with _ | v <;> rfl
    rw [hsplit]
    exact hrest

/-- The numbers are handed out in order, each of them once. -/
theorem handedOut_performAll (t : HandleTable) (actions : List (Action ρ)) :
    List.range t.issued ++ (t.performAll actions).1.filterMap Answer.issued? =
      List.range (t.performAll actions).2.issued := by
  induction actions generalizing t with
  | nil => exact List.append_nil _
  | cons a rest ih =>
    have hrest := ih (t.perform a).2
    rw [performAll, List.filterMap_cons]
    rcases t.perform_cases a with ⟨ht, ha⟩ | ⟨v, ho, hv, ht⟩ | ⟨i, ht⟩ | ⟨_, ht⟩
    · rw [ha]
      rw [ht] at hrest ⊢
      exact hrest
    · rw [ht] at hrest ⊢
      change List.range (t.issued + 1) ++ _ = _ at hrest
      rw [List.range_succ, List.append_assoc] at hrest
      exact hrest
    · rw [ht] at hrest ⊢
      exact hrest
    · rw [ht] at hrest ⊢
      exact hrest

end HandleTable

/-! ## The table that a custodian presents -/

def HandleId.number (id : HandleId) : Nat := id.index.toNat

namespace Custodian

/-- An answer with the numbers of its handles. -/
def numbered : Except LifetimeError (Answer HandleId) → Except LifetimeError (Answer Nat) :=
  Except.map (Answer.map HandleId.number)

/-- An answer with what 32 bits hold of its number. -/
def wrapped : Except LifetimeError (Answer Nat) → Except LifetimeError (Answer Nat) :=
  Except.map (Answer.map fun n => n % UInt32.size)

theorem wrapped_eq_self {answer : Except LifetimeError (Answer Nat)}
    (h : ∀ n, Answer.issued? answer = some n → n < UInt32.size) : wrapped answer = answer := by
  rcases answer with e | (v | n | v | _)
  · rfl
  · rfl
  · exact congrArg (fun n => Except.ok (Answer.issued n)) (Nat.mod_eq_of_lt (h n rfl))
  · rfl
  · rfl

variable {ρ σ : Type} {c : Custodian ρ} {t : HandleTable}

/-- The slots of an open custodian are the entries of the table; a closed one has none. -/
structure Presents (c : Custodian ρ) (t : HandleTable) : Prop where
  name : c.name = t.name
  closed : c.closed = t.closed
  size : c.closed = false → c.slots.size = t.issued
  slots : c.closed = false → ∀ i, c.slots[i]? = (t.entry i).map Entry.value?
  emptied : c.closed = true → c.slots = #[]

theorem new_presents (name : String) : (new name : Custodian ρ).Presents (.new name) where
  name := rfl
  closed := rfl
  size _ := rfl
  slots _ _ := rfl
  emptied h := nomatch h

namespace Presents

theorem mem_occupied (h : c.Presents t) (i : Nat) :
    i ∈ c.occupied ↔ ((t.entry i).bind Entry.value?).isSome := by
  rw [Custodian.mem_occupied]
  cases ho : c.closed with
  | true =>
    have hended (v : Value) : t.entry i ≠ some (.live v) := t.ended (h.closed.symm.trans ho) i v
    rw [h.emptied ho]
    rcases he : t.entry i with _ | (v | _)
    · simp
    · exact absurd he (hended v)
    · simp [Entry.value?]
  | false =>
    rw [h.slots ho]
    rcases t.entry i with _ | (v | _) <;> simp [Entry.value?]

/-- As many handles are alive as numbers. -/
theorem liveHandles (h : c.Presents t) : c.liveHandles = t.liveIds.card := by
  have hval : c.occupied = t.liveIds.val := by
    refine (Multiset.Nodup.ext c.occupied_nodup t.liveIds.nodup).2 fun i => ?_
    rw [h.mem_occupied, Finset.mem_val, HandleTable.liveIds, Finset.mem_filter, Finset.mem_range]
    refine ⟨fun hl => ⟨?_, hl⟩, And.right⟩
    by_contra hi
    rw [(t.entry_eq_none i).2 (Nat.le_of_not_lt hi)] at hl
    cases hl
  rw [← card_occupied, hval, Finset.card_val]

theorem take (h : c.Presents t) (v : Value) :
    numbered (c.outcome .issued (c.retainHandle v)).1 = wrapped (t.take v).1 ∧
      (c.outcome .issued (c.retainHandle v)).2.Presents (t.take v).2 := by
  cases ho : t.closed with
  | true =>
    have hr : c.retainHandle v = .error (.retainAfterClose c.name) := if_pos (h.closed.trans ho)
    rw [hr, HandleTable.take, dif_pos ho, h.name]
    exact ⟨rfl, h⟩
  | false =>
    have hc : c.closed = false := h.closed.trans ho
    have hr : c.retainHandle v = .ok (⟨UInt32.ofNat c.slots.size⟩,
        { c with slots := c.slots.push (some v) }) := if_neg (by simp [hc])
    rw [HandleTable.take, dif_neg (by simp [ho]), hr]
    have hlast : (UInt32.ofNat c.slots.size).toNat = t.issued % UInt32.size := by
      rw [h.size hc]
      exact UInt32.toNat_ofNat'
    refine ⟨congrArg (fun n => Except.ok (Answer.issued n)) hlast, h.name, h.closed, fun _ => ?_,
      fun _ i => ?_, fun hclosed => absurd (hc.symm.trans hclosed) Bool.false_ne_true⟩
    · change (c.slots.push (some v)).size = t.issued + 1
      rw [Array.size_push, h.size hc]
    · change (c.slots.push (some v))[i]? =
        (if i = t.issued then some (.live v) else t.entry i).map Entry.value?
      rw [Array.getElem?_push, h.size hc]
      split
      · rfl
      · exact h.slots hc i

theorem get (h : c.Presents t) (id : HandleId) :
    numbered ((c.get id).map .value) = wrapped (t.get id) := by
  rw [Custodian.get, HandleTable.get, h.closed, h.name]
  cases ho : t.closed with
  | true => rfl
  | false =>
    rw [h.slots (h.closed.trans ho)]
    rcases t.entry id.index.toNat with _ | (v | _) <;> rfl

theorem release (h : c.Presents t) (id : HandleId) :
    numbered (c.outcome (fun _ => .done) ((c.release id).map fun c => ((), c))).1 =
        wrapped (t.release id).1 ∧
      (c.outcome (fun _ => .done) ((c.release id).map fun c => ((), c))).2.Presents
        (t.release id).2 := by
  rw [HandleTable.release]
  cases ho : t.closed with
  | true =>
    have hr : c.release id = .error (.useAfterClose c.name) := if_pos (h.closed.trans ho)
    rw [hr, h.name]
    exact ⟨rfl, h⟩
  | false =>
    have hc : c.closed = false := h.closed.trans ho
    have hslot := h.slots hc id.index.toNat
    rcases he : t.entry id.index.toNat with _ | (v | _)
    · have hr : c.release id = .error (.unknownHandle c.name id.index) := by
        rw [Custodian.release, if_neg (by simp [hc]), hslot, he]
        rfl
      rw [hr, h.name]
      exact ⟨rfl, h⟩
    · rw [he] at hslot
      rw [release_of_holds hc hslot]
      refine ⟨rfl, h.name, h.closed, fun _ => ?_, fun _ i => ?_,
        fun hclosed => absurd (hc.symm.trans hclosed) Bool.false_ne_true⟩
      · exact Array.size_setIfInBounds.trans (h.size hc)
      · change (c.slots.setIfInBounds id.index.toNat none)[i]? =
          (if i = id.index.toNat then (t.entry i).map fun _ => .released
            else t.entry i).map Entry.value?
        rw [getElem?_release hslot, h.slots hc]
        by_cases hi : id.index.toNat = i
        · rw [if_pos hi, if_pos hi.symm, ← hi, he]
          rfl
        · rw [if_neg hi, if_neg (Ne.symm hi)]
    · have hr : c.release id = .error (.releasedTwice c.name id.index) := by
        rw [Custodian.release, if_neg (by simp [hc]), hslot, he]
        rfl
      rw [hr, h.name]
      exact ⟨rfl, h⟩

theorem shut (h : c.Presents t) :
    ({ c with slots := #[], resources := [], closed := true } : Custodian ρ).Presents t.shut where
  name := h.name
  closed := rfl
  size := nofun
  slots := nofun
  emptied _ := rfl

theorem track (h : c.Presents t) (resources : List ρ) :
    ({ c with resources } : Custodian ρ).Presents t where
  name := h.name
  closed := h.closed
  size := h.size
  slots := h.slots
  emptied := h.emptied

end Presents

section

variable (closing : ρ → StateM σ (Except SessionError Unit))
  (report : Nat → SessionError → StateM σ Unit)

/-- An open custodian can be closed, whatever comes of its resources. -/
theorem close_run (c : Custodian ρ) (s : σ) :
    (c.closed = true → c.close closing report s = (.error (.closedTwice c.name), s)) ∧
    (c.closed = false → ∃ given s', c.close closing report s =
      (.ok (given, { c with slots := #[], resources := [], closed := true }), s')) := by
  constructor
  · intro hc
    rw [close, if_pos hc]
    rfl
  · intro ho
    rw [close, if_neg (by simp [ho])]
    exact ⟨_, _, rfl⟩

theorem perform_close (c : Custodian ρ) (s : σ) : c.perform closing report .close s =
    (c.outcome (fun _ => .done) (c.close closing report s).1, (c.close closing report s).2) := rfl

/-- What owns something is retained for a handle, also when nobody has looked. -/
theorem outcome_retain {v : Value} (h : c.closed = true ∨ v.ownsNothing = false) :
    c.outcome .ofRetained (c.retain v) = c.outcome .issued (c.retainHandle v) := by
  rw [retain, retainHandle]
  cases hc : c.closed with
  | true => rfl
  | false =>
    rw [h.resolve_left (by simp [hc])]
    rfl

/-- One action is answered as the table answers it, but for what 32 bits do not hold. -/
theorem Presents.perform (h : c.Presents t) (a : Action ρ) (s : σ) :
    numbered (c.perform closing report a s).1.1 = wrapped (t.perform a).1 ∧
      (c.perform closing report a s).1.2.Presents (t.perform a).2 := by
  cases a with
  | retain v =>
    by_cases hv : t.closed = false ∧ v.ownsNothing = true
    · rw [HandleTable.perform, if_pos hv]
      have hc : c.retain v = .ok (.primitive v, c) := by
        rw [Custodian.retain, h.closed, hv.1, hv.2]
        rfl
      rw [Custodian.perform, hc]
      exact ⟨rfl, h⟩
    · rw [HandleTable.perform, if_neg hv, Custodian.perform, outcome_retain]
      · exact h.take v
      · rw [h.closed]
        simpa [or_iff_not_imp_left] using hv
  | retainObject r => exact h.take _
  | retainHandle v owning => exact h.take v
  | get id => exact ⟨h.get id, h⟩
  | resolve r =>
    cases r with
    | primitive v => exact ⟨rfl, h⟩
    | handle id => exact ⟨h.get id, h⟩
  | release id => exact h.release id
  | track finished resource =>
    rw [HandleTable.perform]
    cases ho : t.closed with
    | true =>
      have hr : c.track finished resource = .error (.retainAfterClose c.name) :=
        if_pos (h.closed.trans ho)
      rw [Custodian.perform, hr, h.name]
      exact ⟨rfl, h⟩
    | false =>
      have hr : c.track finished resource = .ok { c with
          resources := c.resources.filter (fun r => !finished r) ++ [resource] } :=
        if_neg (by simp [h.closed.trans ho])
      rw [Custodian.perform, hr]
      exact ⟨rfl, h.track _⟩
  | close =>
    rw [perform_close, HandleTable.perform]
    cases ho : t.closed with
    | true =>
      rw [(c.close_run closing report s).1 (h.closed.trans ho), h.name]
      exact ⟨rfl, h⟩
    | false =>
      obtain ⟨given, s', hs⟩ := (c.close_run closing report s).2 (h.closed.trans ho)
      rw [hs]
      exact ⟨rfl, h.shut⟩

/-- Actions that follow each other are answered as the table answers them, but for what 32 bits do not
hold. -/
theorem Presents.performAll_wrapped (h : c.Presents t) (actions : List (Action ρ)) (s : σ) :
    (c.performAll closing report actions s).1.1.map numbered =
        (t.performAll actions).1.map wrapped ∧
      (c.performAll closing report actions s).1.2.Presents (t.performAll actions).2 := by
  induction actions generalizing c t s with
  | nil => exact ⟨rfl, h⟩
  | cons a rest ih =>
    obtain ⟨hanswer, hafter⟩ := h.perform closing report a s
    obtain ⟨hanswers, hlast⟩ := ih hafter (c.perform closing report a s).2
    exact ⟨congrArg₂ List.cons hanswer hanswers, hlast⟩

/-- As long as the numbers fit, nothing is missing. -/
theorem Presents.performAll (h : c.Presents t) (actions : List (Action ρ)) (s : σ)
    (hbound : (t.performAll actions).2.issued ≤ UInt32.size) :
    (c.performAll closing report actions s).1.1.map numbered = (t.performAll actions).1 ∧
      (c.performAll closing report actions s).1.2.Presents (t.performAll actions).2 := by
  refine (h.performAll_wrapped closing report actions s).imp_left fun hanswers => hanswers.trans ?_
  have hfits : ∀ answer ∈ (t.performAll actions).1, wrapped answer = answer := by
    refine fun answer ha => wrapped_eq_self fun n hn => ?_
    have hmem : n ∈ List.range (t.performAll actions).2.issued := by
      rw [← t.handedOut_performAll actions]
      exact List.mem_append_right _ (List.mem_filterMap.2 ⟨answer, ha, hn⟩)
    exact (List.mem_range.1 hmem).trans_le hbound
  exact (List.map_congr_left hfits).trans (List.map_id' _)

theorem outcome_failed {α : Type} {answer : α → Answer HandleId}
    {x : Except LifetimeError (α × Custodian ρ)} {e : LifetimeError}
    (h : (c.outcome answer x).1 = .error e) : c.outcome answer x = (.error e, c) := by
  cases x with
  | ok y => cases h
  | error e' =>
    cases h
    rfl

/-- An action that fails changes nothing and closes nothing. -/
theorem perform_failed {a : Action ρ} {s : σ} {e : LifetimeError}
    (h : (c.perform closing report a s).1.1 = .error e) :
    c.perform closing report a s = ((.error e, c), s) := by
  cases a with
  | get id => exact congrArg (fun r => ((r, c), s)) h
  | resolve r => exact congrArg (fun r => ((r, c), s)) h
  | close =>
    rw [perform_close] at h ⊢
    cases hc : c.closed with
    | true =>
      rw [(c.close_run closing report s).1 hc] at h ⊢
      cases h
      rfl
    | false =>
      obtain ⟨given, s', hs⟩ := (c.close_run closing report s).2 hc
      rw [hs] at h
      cases h
  | _ => exact congrArg (fun x => (x, s)) (outcome_failed h)

/-- A custodian answers as the table does, as long as its handles fit into 32 bits. The table hands out
0, 1, 2 and so on; what lives under a number is the value retained for it; what was given up stays so;
the custodian has as many live handles as the table, none once it is closed; and an action that fails
leaves everything as it was. -/
theorem custodian_is_table (name : String) (actions : List (Action ρ)) (s : σ)
    (hbound : ((HandleTable.new name).performAll actions).2.issued ≤ UInt32.size) :
    let run := (new name : Custodian ρ).performAll closing report actions s
    let table := (HandleTable.new name).performAll actions
    run.1.1.map numbered = table.1 ∧ run.1.2.Presents table.2 ∧
      table.1.filterMap Answer.issued? = List.range table.2.issued ∧
      table.2.Recalls (HandleTable.keptAll actions table.1) ∧
      (∀ before after, actions = before ++ after →
        ((HandleTable.new name).performAll before).2.Follows table.2) ∧
      run.1.2.liveHandles = table.2.liveIds.card ∧
      (run.1.2.closed = true → run.1.2.liveHandles = 0) ∧
      ∀ (a : Action ρ) (s' : σ) (e : LifetimeError),
        (run.1.2.perform closing report a s').1.1 = .error e →
          run.1.2.perform closing report a s' = ((.error e, run.1.2), s') := by
  intro run table
  obtain ⟨hanswers, hpresents⟩ :=
    (new_presents name : (new name : Custodian ρ).Presents _).performAll closing report actions s hbound
  have hnew : (HandleTable.new name).Recalls [] := ⟨rfl, fun _ _ h => nomatch h⟩
  refine ⟨hanswers, hpresents, (HandleTable.new name).handedOut_performAll actions,
    HandleTable.recalls_performAll hnew actions, ?_, hpresents.liveHandles, fun hc => ?_,
    fun a s' e h => perform_failed closing report h⟩
  · rintro before after rfl
    change HandleTable.Follows _ (HandleTable.performAll _ (before ++ after)).2
    rw [HandleTable.performAll_append]
    exact HandleTable.follows_performAll _ after
  · rw [liveHandles, hpresents.emptied hc]
    rfl

end

/-- Two values are retained, the first is given up twice, and the custodian is closed twice. -/
def sampleActions : List (Action Unit) :=
  [.retain (.int 3), .retainObject ⟨5⟩, .retainHandle (.ofString "text") rfl, .release ⟨0⟩,
    .release ⟨0⟩, .get ⟨0⟩, .get ⟨1⟩, .get ⟨2⟩, .close, .get ⟨1⟩, .resolve (.primitive .null),
    .retain .null, .close]

theorem custodian_is_table_sample :
    ((new "sample").performAll (fun _ => pure (.ok ())) (fun _ _ => pure ()) sampleActions
      0).1.1.map numbered =
      [.ok (.passed (.int 3)), .ok (.issued 0), .ok (.issued 1), .ok .done,
        .error (.releasedTwice "sample" 0), .error (.useAfterClose "sample"),
        .ok (.value (.ofString "text")), .error (.unknownHandle "sample" 2), .ok .done,
        .error (.useAfterClose "sample"), .ok (.value .null),
        .error (.retainAfterClose "sample"), .error (.closedTwice "sample")] :=
  (custodian_is_table _ _ "sample" sampleActions 0 (by decide)).1.trans rfl

end Custodian

end ProxySession
