import Mathlib.Data.Nat.ModEq
import ProxySession.Proofs.HandleTable

/-!
# Numbers of handles

A custodian uses no slot twice, but it numbers its slots in 32 bits. So the first `2 ^ 32` handles that it
hands out are all different, and then the same ones come again in the same order. A handle that was handed out
more than once leads to what was retained under it first, or to nothing any more.
-/

namespace ProxySession

theorem HandleId.number_injective : Function.Injective HandleId.number := by
  rintro ⟨index⟩ ⟨index'⟩ h
  exact congrArg HandleId.mk (UInt32.toNat_inj.1 h)

namespace Custodian

variable {ρ σ ι κ : Type} {c : Custodian ρ} {t : HandleTable}

/-- The names that actions were answered with, each with the value that was retained under it, in order. -/
def retentions (actions : List (Action ρ)) (answers : List (Except LifetimeError (Answer ι))) :
    List (ι × Value) :=
  (actions.zip answers).filterMap fun x =>
    (Answer.issued? x.2).bind fun id => x.1.offered?.map fun v => (id, v)

theorem retentions_cons (a : Action ρ) (actions : List (Action ρ))
    (answer : Except LifetimeError (Answer ι)) (answers : List (Except LifetimeError (Answer ι))) :
    retentions (a :: actions) (answer :: answers) =
      ((Answer.issued? answer).bind fun id => a.offered?.map fun v => (id, v)).toList ++
        retentions actions answers := by
  rw [retentions, List.zip_cons_cons, List.filterMap_cons]
  cases (Answer.issued? answer).bind fun id => a.offered?.map fun v => (id, v) <;> rfl

theorem issued?_map (f : ι → κ) (answer : Except LifetimeError (Answer ι)) :
    Answer.issued? (answer.map (Answer.map f)) = (Answer.issued? answer).map f := by
  rcases answer with e | (v | id | v | _) <;> rfl

theorem retentions_map (f : ι → κ) (actions : List (Action ρ))
    (answers : List (Except LifetimeError (Answer ι))) :
    retentions actions (answers.map (Except.map (Answer.map f))) =
      (retentions actions answers).map (Prod.map f id) := by
  induction actions generalizing answers with
  | nil => rfl
  | cons a actions ih =>
    cases answers with
    | nil => rfl
    | cons answer answers =>
      rw [List.map_cons, retentions_cons, retentions_cons, List.map_append, ih, issued?_map]
      cases Answer.issued? answer <;> cases a.offered? <;> rfl

theorem retentions_values (actions : List (Action ρ)) (answers : List (Except LifetimeError (Answer ι))) :
    (retentions actions answers).map Prod.snd = HandleTable.keptAll actions answers := by
  rw [retentions, HandleTable.keptAll, List.map_filterMap]
  congr 1
  funext x
  rw [HandleTable.kept]
  cases Answer.issued? x.2 <;> cases x.1.offered? <;> rfl

/-! ## Retentions in a table -/

theorem retentions_names (t : HandleTable) (actions : List (Action ρ)) :
    (retentions actions (t.performAll actions).1).map Prod.fst =
      (t.performAll actions).1.filterMap Answer.issued? := by
  induction actions generalizing t with
  | nil => rfl
  | cons a actions ih =>
    rw [HandleTable.performAll, retentions_cons, List.map_append, ih, List.filterMap_cons]
    rcases t.perform_cases a with ⟨-, ha⟩ | ⟨v, ho, hv, ht⟩ | ⟨i, ht⟩ | ⟨-, ht⟩
    · rw [ha]
      rfl
    · rw [ht, hv]
      rfl
    · rw [ht]
      rfl
    · rw [ht]
      rfl

/-- A new table names what is retained by the numbers from 0 on. -/
theorem retentions_of_new (name : String) (actions : List (Action ρ)) (i : Nat) :
    (retentions actions ((HandleTable.new name).performAll actions).1)[i]? =
      (HandleTable.keptAll actions ((HandleTable.new name).performAll actions).1)[i]?.map fun v =>
        (i, v) := by
  have hnames := (retentions_names (.new name) actions).trans
    ((HandleTable.new name).handedOut_performAll actions)
  rw [← retentions_values, List.getElem?_map]
  cases hx : (retentions actions ((HandleTable.new name).performAll actions).1)[i]? with
  | none => rfl
  | some x =>
    have hi : x.1 ∈ (List.range ((HandleTable.new name).performAll actions).2.issued)[i]? := by
      rw [← hnames, List.getElem?_map, hx]
      rfl
    obtain ⟨_, hi⟩ := List.getElem?_eq_some_iff.1 hi
    rw [List.getElem_range] at hi
    rw [hi]
    rfl

/-! ## Retentions in a custodian -/

section

variable (closing : ρ → StateM σ (Except SessionError Unit))
  (report : Nat → SessionError → StateM σ Unit)

/-- A new custodian names what is retained by the numbers from 0 on, as far as 32 bits hold them. -/
theorem retentions_new (name : String) (actions : List (Action ρ)) (s : σ) :
    retentions actions ((new name : Custodian ρ).performAll closing report actions s).1.1 =
      (HandleTable.keptAll actions ((HandleTable.new name).performAll actions).1).mapIdx fun i v =>
        (⟨UInt32.ofNat i⟩, v) := by
  obtain ⟨hanswers, -⟩ :=
    (new_presents name : (new name : Custodian ρ).Presents _).performAll_wrapped closing report actions s
  refine List.ext_getElem? fun i => ?_
  -- the answers agree by their numbers, and handles with the same number are the same
  have hnamed := congrArg (fun answers => (retentions actions answers)[i]?) hanswers
  dsimp only [numbered, wrapped] at hnamed
  rw [retentions_map, retentions_map, List.getElem?_map, List.getElem?_map, retentions_of_new] at hnamed
  have hinj : Function.Injective (Prod.map HandleId.number id : HandleId × Value → ℕ × Value) :=
    HandleId.number_injective.prodMap Function.injective_id
  refine Option.map_injective hinj (hnamed.trans ?_)
  rw [List.getElem?_mapIdx, Option.map_map, Option.map_map]
  exact congrArg (Option.map · _) (funext fun v => congrArg (·, v) UInt32.toNat_ofNat'.symm)

/-- What a handle leads to was retained under its number. -/
theorem get_retention {vs : List Value} (h : c.Presents t) (hr : t.Recalls vs) {id : HandleId} {v : Value}
    (hv : c.get id = .ok v) : vs[id.number]? = some v := by
  obtain ⟨ho, hslot⟩ := get_ok hv
  have hentry : (t.entry id.number).map Entry.value? = some (some v) := (h.slots ho _).symm.trans hslot
  obtain ⟨e, he, hlive⟩ := Option.map_eq_some_iff.1 hentry
  cases e with
  | live u =>
    cases hlive
    exact hr.live _ _ he
  | released => cases hlive

theorem handle_eq_iff {i j : ℕ} :
    (⟨UInt32.ofNat i⟩ : HandleId) = ⟨UInt32.ofNat j⟩ ↔ i ≡ j [MOD 2 ^ 32] := by
  rw [HandleId.mk.injEq, ← UInt32.toNat_inj, UInt32.toNat_ofNat', UInt32.toNat_ofNat']
  rfl

theorem handle_number (id : HandleId) : (⟨UInt32.ofNat id.number⟩ : HandleId) = id :=
  congrArg HandleId.mk UInt32.ofNat_toNat

theorem number_le (j : ℕ) : (⟨UInt32.ofNat j⟩ : HandleId).number ≤ j :=
  UInt32.toNat_ofNat'.trans_le (Nat.mod_le j _)

theorem names_mapIdx (vs : List Value) :
    (vs.mapIdx fun i v => ((⟨UInt32.ofNat i⟩ : HandleId), v)).map Prod.fst =
      (List.range vs.length).map fun i => ⟨UInt32.ofNat i⟩ := by
  refine List.ext_getElem (by simp) fun i hi hi' => ?_
  simp

theorem names_nodup {n : ℕ} (h : n ≤ 2 ^ 32) :
    ((List.range n).map fun i => (⟨UInt32.ofNat i⟩ : HandleId)).Nodup := by
  refine List.nodup_range.map_on fun i hi j hj heq => ?_
  exact (handle_eq_iff.1 heq).eq_of_lt_of_lt ((List.mem_range.1 hi).trans_le h)
    ((List.mem_range.1 hj).trans_le h)

/-- An open custodian names the next value by the number of those it has retained, as far as 32 bits hold
it. -/
theorem perform_retain {vs : List Value} (h : c.Presents t) (hr : t.Recalls vs) (ho : c.closed = false)
    {v : Value} (hv : v.ownsNothing = false) (s : σ) :
    (c.perform closing report (.retain v) s).1.1 = .ok (.issued ⟨UInt32.ofNat vs.length⟩) := by
  have hretained : c.retainHandle v =
      .ok (⟨UInt32.ofNat c.slots.size⟩, { c with slots := c.slots.push (some v) }) := if_neg (by simp [ho])
  rw [perform, outcome_retain (.inr hv), hretained, h.size ho, hr.length]
  rfl

/-- The handles of a custodian that hands out more than `2 ^ 32` of them come again: of the values retained,
two have one handle just if their places are congruent modulo `2 ^ 32`. The first `2 ^ 32` handles are
different, and what a handle leads to is the first value that was retained under it. -/
theorem handles_come_again (name : String) (actions : List (Action ρ)) (s : σ) :
    let run := (new name : Custodian ρ).performAll closing report actions s
    let made := retentions actions run.1.1
    (∀ (i j : ℕ) (x y : HandleId × Value), made[i]? = some x → made[j]? = some y →
      (x.1 = y.1 ↔ i ≡ j [MOD 2 ^ 32])) ∧
    (made.length ≤ 2 ^ 32 → (made.map Prod.fst).Nodup) ∧
    (∀ id v, run.1.2.get id = .ok v →
      ∃ i : ℕ, made[i]? = some (id, v) ∧
        ∀ (j : ℕ) (y : HandleId × Value), made[j]? = some y → y.1 = id → i ≤ j) ∧
    ∀ v s', run.1.2.closed = false → v.ownsNothing = false →
      (run.1.2.perform closing report (.retain v) s').1.1 = .ok (.issued ⟨UInt32.ofNat made.length⟩) := by
  intro run made
  let table := (HandleTable.new name).performAll actions
  have hmade : made = (HandleTable.keptAll actions table.1).mapIdx fun i v => (⟨UInt32.ofNat i⟩, v) :=
    retentions_new closing report name actions s
  have hnamed {i : ℕ} {x : HandleId × Value} (hx : made[i]? = some x) : x.1 = ⟨UInt32.ofNat i⟩ := by
    rw [hmade, List.getElem?_mapIdx] at hx
    obtain ⟨v, -, rfl⟩ := Option.map_eq_some_iff.1 hx
    rfl
  obtain ⟨-, hpresents⟩ :=
    (new_presents name : (new name : Custodian ρ).Presents _).performAll_wrapped closing report actions s
  have hnew : (HandleTable.new name).Recalls [] := ⟨rfl, fun _ _ h => nomatch h⟩
  have hrecalls : table.2.Recalls (HandleTable.keptAll actions table.1) :=
    HandleTable.recalls_performAll hnew actions
  refine ⟨fun i j x y hx hy => ?_, fun hfits => ?_, fun id v hv => ⟨id.number, ?_, ?_⟩, fun v s' ho hv => ?_⟩
  · rw [hnamed hx, hnamed hy, handle_eq_iff]
  · rw [hmade, names_mapIdx]
    refine names_nodup ?_
    rwa [hmade, List.length_mapIdx] at hfits
  · rw [hmade, List.getElem?_mapIdx, get_retention hpresents hrecalls hv, Option.map_some, handle_number]
  · rintro j y hy rfl
    rw [hnamed hy]
    exact number_le j
  · rw [hmade, List.length_mapIdx]
    exact perform_retain closing report hpresents hrecalls ho hv s'

end

/-- A value that passes through, and three values retained, of which the first is given up in between. -/
def sampleRetentions : List (Action Unit) :=
  [.retain (.object ⟨5⟩), .retain (.int 3), .retain (.ofString "text"), .release ⟨0⟩, .retain (.object ⟨7⟩)]

theorem handles_come_again_sample :
    let run := (new "sample").performAll (fun _ => pure (.ok ())) (fun _ _ => pure ()) sampleRetentions ()
    let made := retentions sampleRetentions run.1.1
    made[0]? = some (⟨0⟩, .object ⟨5⟩) ∧ made[2]? = some (⟨2⟩, .object ⟨7⟩) ∧
      ((⟨0⟩ : HandleId) = ⟨2⟩ ↔ 0 ≡ 2 [MOD 2 ^ 32]) ∧
      made.length ≤ 2 ^ 32 ∧ (made.map Prod.fst).Nodup ∧
      run.1.2.get ⟨2⟩ = .ok (.object ⟨7⟩) ∧
      (∃ i : ℕ, made[i]? = some (⟨2⟩, .object ⟨7⟩) ∧
        ∀ (j : ℕ) (y : HandleId × Value), made[j]? = some y → y.1 = ⟨2⟩ → i ≤ j) ∧
      run.1.2.closed = false ∧ (Value.object ⟨9⟩).ownsNothing = false ∧
      (run.1.2.perform (fun _ => pure (.ok ())) (fun _ _ => pure ()) (.retain (.object ⟨9⟩)) ()).1.1 =
        .ok (.issued ⟨3⟩) := by
  intro run made
  obtain ⟨hsame, hdistinct, hfirst, hnext⟩ :=
    handles_come_again (fun _ => pure (.ok ())) (fun _ _ => pure ()) "sample" sampleRetentions ()
  exact ⟨rfl, rfl, hsame 0 2 (⟨0⟩, .object ⟨5⟩) (⟨2⟩, .object ⟨7⟩) rfl rfl, by decide, hdistinct (by decide),
    rfl, hfirst ⟨2⟩ (.object ⟨7⟩) rfl, rfl, rfl, hnext (.object ⟨9⟩) () rfl rfl⟩

/-! ## A crowded custodian -/

/-- An open table retains all that owns something. -/
theorem keptAll_retain {vs : List Value} (ho : t.closed = false) (hvs : ∀ v ∈ vs, v.ownsNothing = false) :
    HandleTable.keptAll (ρ := ρ) (vs.map .retain) (t.performAll (ρ := ρ) (vs.map .retain)).1 = vs := by
  induction vs generalizing t with
  | nil => rfl
  | cons v vs ih =>
    have hv : v.ownsNothing = false := hvs v (List.mem_cons_self ..)
    have ht : t.perform (ρ := ρ) (.retain v) = (.ok (.issued t.issued), t.issue v ho) := by
      rw [HandleTable.perform, if_neg (by simp [hv]), HandleTable.take, dif_neg (by simp [ho])]
    have hrest := ih (t := t.issue v ho) ho fun u hu => hvs u (List.mem_cons_of_mem v hu)
    rw [List.map_cons, HandleTable.performAll, ht]
    exact congrArg (v :: ·) hrest

/-- A new custodian that is only given what owns something retains it all. -/
theorem retentions_retain (closing : ρ → StateM σ (Except SessionError Unit))
    (report : Nat → SessionError → StateM σ Unit) (name : String) {vs : List Value}
    (hvs : ∀ v ∈ vs, v.ownsNothing = false) (s : σ) :
    retentions (ρ := ρ) (vs.map .retain)
        ((new name : Custodian ρ).performAll closing report (vs.map .retain) s).1.1 =
      vs.mapIdx fun i v => (⟨UInt32.ofNat i⟩, v) := by
  rw [retentions_new, keptAll_retain (t := .new name) rfl hvs]

/-- One value more than 32 bits number. -/
def crowd : List Value := List.replicate (2 ^ 32) (.object ⟨0⟩) ++ [.object ⟨1⟩]

theorem crowd_first : crowd[0]? = some (.object ⟨0⟩) := by
  rw [crowd, List.getElem?_append_left, List.getElem?_replicate, if_pos (by omega)]
  rw [List.length_replicate]
  omega

theorem crowd_last : crowd[2 ^ 32]? = some (.object ⟨1⟩) := by
  rw [crowd, List.getElem?_append_right (by rw [List.length_replicate]), List.length_replicate,
    Nat.sub_self]
  rfl

theorem crowd_owning (v : Value) (hv : v ∈ crowd) : v.ownsNothing = false := by
  rcases List.mem_append.1 hv with hv | hv
  · rw [List.eq_of_mem_replicate hv]
    rfl
  · rw [List.mem_singleton.1 hv]
    rfl

def crowding : List (Action Unit) := crowd.map .retain

/-- The handle of the first value comes again for the last one. -/
theorem handles_meet :
    let run := (new "sample").performAll (fun _ => pure (.ok ())) (fun _ _ => pure ()) crowding ()
    let made := retentions crowding run.1.1
    ¬∀ (i j : ℕ) (x y : HandleId × Value), made[i]? = some x → made[j]? = some y → i ≠ j → x.1 ≠ y.1 := by
  intro run made hdistinct
  have hmade : made = crowd.mapIdx fun i v => (⟨UInt32.ofNat i⟩, v) := by
    -- the crowd itself is far too long to be unfolded
    dsimp only [made, run, crowding]
    exact retentions_retain _ _ "sample" crowd_owning ()
  refine hdistinct 0 (2 ^ 32) (⟨UInt32.ofNat 0⟩, .object ⟨0⟩) (⟨UInt32.ofNat (2 ^ 32)⟩, .object ⟨1⟩)
    ?_ ?_ (by omega) (handle_eq_iff.2 (Nat.mod_self _).symm)
  · rw [hmade, List.getElem?_mapIdx, crowd_first]
    rfl
  · rw [hmade, List.getElem?_mapIdx, crowd_last]
    rfl

end Custodian

end ProxySession
