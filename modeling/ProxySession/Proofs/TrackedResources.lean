import ProxySession.Proofs.HandleTable

/-!
# Resources under a custodian

A custodian closes each of its resources once, when it is closed itself, in the order in which they were
tracked. Which ones are left by then is told by what was tracked after them: tracking a resource drops the
ones that are found finished. To see what is closed, each call is written down next to whatever else
closing a resource does.
-/

namespace ProxySession

namespace Custodian

variable {ρ σ : Type}

/-! ## The resources that are spared -/

namespace Action

/-- The resource that an action tracks. -/
def tracked? : Action ρ → Option ρ
  | track _ r => some r
  | retain _ | retainObject _ | retainHandle _ _ | get _ | resolve _ | release _ | close => none

/-- Whether an action asks a resource and finds it finished. -/
def observes (r : ρ) : Action ρ → Bool
  | track finished _ => finished r
  | retain _ | retainObject _ | retainHandle _ _ | get _ | resolve _ | release _ | close => false

end Action

/-- The resources that actions track and that no later one finds finished, in the order of tracking. -/
def spared : List (Action ρ) → List ρ
  | [] => []
  | a :: later => a.tracked?.toList.filter (fun r => !later.any (Action.observes r)) ++ spared later

theorem spared_sublist (actions : List (Action ρ)) :
    (spared actions).Sublist (actions.filterMap Action.tracked?) := by
  induction actions with
  | nil => exact .slnil
  | cons a later ih =>
    have hhead : (a :: later).filterMap Action.tracked? =
        a.tracked?.toList ++ later.filterMap Action.tracked? := by
      cases h : a.tracked? <;> simp [h]
    rw [hhead]
    exact List.filter_sublist.append ih

theorem mem_spared {actions : List (Action ρ)} {r : ρ} :
    r ∈ spared actions ↔ ∃ earlier finished later, actions = earlier ++ .track finished r :: later ∧
      ∀ a ∈ later, a.observes r = false := by
  induction actions with
  | nil => simp [spared]
  | cons a rest ih =>
    rw [spared, List.mem_append, ih, List.mem_filter]
    constructor
    · rintro (⟨ha, hrest⟩ | ⟨earlier, finished, later, rfl, hlater⟩)
      · cases a with
        | track finished r' =>
          obtain rfl : r = r' := List.mem_singleton.1 ha
          exact ⟨[], finished, rest, rfl, by simpa using hrest⟩
        | _ => cases ha
      · exact ⟨a :: earlier, finished, later, rfl, hlater⟩
    · rintro ⟨earlier, finished, later, hsplit, hlater⟩
      cases earlier with
      | nil =>
        cases hsplit
        exact .inl ⟨List.mem_singleton_self r, by simpa using hlater⟩
      | cons a' earlier =>
        cases hsplit
        exact .inr ⟨earlier, finished, later, rfl, hlater⟩

/-- What a closed custodian answers. No resource is asked anything for it. -/
def refusal (name : String) : Action ρ → Except LifetimeError (Answer HandleId)
  | .retain _ | .retainObject _ | .retainHandle _ _ | .track _ _ => .error (.retainAfterClose name)
  | .get _ | .resolve (.handle _) | .release _ => .error (.useAfterClose name)
  | .resolve (.primitive v) => .ok (.value v)
  | .close => .error (.closedTwice name)

section

variable (closing : ρ → StateM σ (Except SessionError Unit))
  (report : Nat → SessionError → StateM σ Unit) {c : Custodian ρ}

theorem performAll_cons {answer : Except LifetimeError (Answer HandleId)} {c' : Custodian ρ}
    {a : Action ρ} {s s' : σ} (h : c.perform closing report a s = ((answer, c'), s'))
    (rest : List (Action ρ)) :
    c.performAll closing report (a :: rest) s =
      ((answer :: (c'.performAll closing report rest s').1.1,
        (c'.performAll closing report rest s').1.2), (c'.performAll closing report rest s').2) := by
  simp only [performAll, bind, StateT.bind, h]
  rfl

theorem performAll_append (c : Custodian ρ) (before after : List (Action ρ)) (s : σ) :
    c.performAll closing report (before ++ after) s =
      let first := c.performAll closing report before s
      let second := first.1.2.performAll closing report after first.2
      ((first.1.1 ++ second.1.1, second.1.2), second.2) := by
  induction before generalizing c s with
  | nil => rfl
  | cons a rest ih =>
    rw [List.cons_append, performAll_cons closing report rfl, performAll_cons closing report rfl, ih]
    rfl

/-! ## Before the custodian is closed -/

/-- Before the custodian is closed, an action closes nothing and drops what it finds finished. -/
theorem perform_open (hopen : c.closed = false) {a : Action ρ} (ha : a ≠ .close) (s : σ) :
    ∃ answer c', c.perform closing report a s = ((answer, c'), s) ∧ c'.name = c.name ∧
      c'.closed = false ∧
      c'.resources = c.resources.filter (fun r => !a.observes r) ++ a.tracked?.toList := by
  -- Only tracking touches the resources. All that the other actions come to is of this form.
  have hkept {answer : Except LifetimeError (Answer HandleId)} {c' : Custodian ρ}
      (hn : c'.name = c.name) (hc : c'.closed = c.closed) (hr : c'.resources = c.resources)
      (htracked : a.tracked? = none) (hobserved : ∀ r, a.observes r = false) :
      ∃ answer' c'', (((answer, c'), s) : _ × σ) = ((answer', c''), s) ∧ c''.name = c.name ∧
        c''.closed = false ∧
        c''.resources = c.resources.filter (fun r => !a.observes r) ++ a.tracked?.toList :=
    ⟨_, _, rfl, hn, hc.trans hopen, by simp [hr, htracked, hobserved]⟩
  have hissued (v : Value) : c.retainHandle v = .ok (⟨UInt32.ofNat c.slots.size⟩,
      { c with slots := c.slots.push (some v) }) := if_neg (by simp [hopen])
  cases a with
  | retain v =>
    rw [perform, retain, if_neg (by simp [hopen]), hissued]
    split <;> exact hkept rfl rfl rfl rfl fun _ => rfl
  | retainObject r =>
    rw [perform, hissued]
    exact hkept rfl rfl rfl rfl fun _ => rfl
  | retainHandle v owning =>
    rw [perform, hissued]
    exact hkept rfl rfl rfl rfl fun _ => rfl
  | get id => exact hkept rfl rfl rfl rfl fun _ => rfl
  | resolve r => exact hkept rfl rfl rfl rfl fun _ => rfl
  | release id =>
    rw [perform, release, if_neg (by simp [hopen])]
    split <;> exact hkept rfl rfl rfl rfl fun _ => rfl
  | track finished resource =>
    rw [perform, track, if_neg (by simp [hopen])]
    exact ⟨_, _, rfl, rfl, hopen, rfl⟩
  | close => exact absurd rfl ha

/-- As long as the custodian is not closed no resource is, and it holds the ones that were spared. -/
theorem performAll_open (hopen : c.closed = false) {actions : List (Action ρ)}
    (hactions : .close ∉ actions) (s : σ) :
    ∃ answers c', c.performAll closing report actions s = ((answers, c'), s) ∧ c'.name = c.name ∧
      c'.closed = false ∧
      c'.resources =
        c.resources.filter (fun r => !actions.any (Action.observes r)) ++ spared actions := by
  induction actions generalizing c with
  | nil => exact ⟨[], c, rfl, rfl, hopen, by simp [spared]⟩
  | cons a rest ih =>
    rw [List.mem_cons, not_or] at hactions
    obtain ⟨answer, c₁, ha, hn₁, hopen₁, hr₁⟩ := perform_open closing report hopen (Ne.symm hactions.1) s
    obtain ⟨answers, c₂, hrest, hn₂, hopen₂, hr₂⟩ := ih hopen₁ hactions.2
    refine ⟨answer :: answers, c₂, ?_, hn₂.trans hn₁, hopen₂, ?_⟩
    · rw [performAll_cons closing report ha, hrest]
    · -- What was there before is asked by the first action and by the others, in one go or in two.
      have hboth : (c.resources.filter fun r => !a.observes r).filter
          (fun r => !rest.any (Action.observes r)) =
          c.resources.filter fun r => !(a :: rest).any (Action.observes r) := by
        rw [List.filter_filter]
        exact List.filter_congr fun r _ => by rw [List.any_cons, Bool.not_or, Bool.and_comm]
      rw [hr₂, hr₁, List.filter_append, List.append_assoc, hboth, spared]

/-! ## After the custodian is closed -/

theorem perform_closed (hclosed : c.closed = true) (a : Action ρ) (s : σ) :
    c.perform closing report a s = ((refusal c.name a, c), s) := by
  have hissued (v : Value) : c.retainHandle v = .error (.retainAfterClose c.name) := if_pos hclosed
  have hget (id : HandleId) : c.get id = .error (.useAfterClose c.name) := if_pos hclosed
  cases a with
  | retain v =>
    rw [perform, outcome_retain (.inl hclosed), hissued]
    rfl
  | retainObject r =>
    rw [perform, hissued]
    rfl
  | retainHandle v owning =>
    rw [perform, hissued]
    rfl
  | get id =>
    rw [perform, hget]
    rfl
  | resolve r =>
    cases r with
    | primitive v => rfl
    | handle id =>
      rw [perform, resolve, hget]
      rfl
  | release id =>
    rw [perform, release, if_pos hclosed]
    rfl
  | track finished resource =>
    rw [perform, track, if_pos hclosed]
    rfl
  | close =>
    rw [perform_close, (c.close_run closing report s).1 hclosed]
    rfl

theorem performAll_closed (hclosed : c.closed = true) (actions : List (Action ρ)) (s : σ) :
    c.performAll closing report actions s = ((actions.map (refusal c.name), c), s) := by
  induction actions with
  | nil => rfl
  | cons a rest ih =>
    rw [performAll_cons closing report (perform_closed closing report hclosed a s), ih, List.map_cons]

/-- Closing a custodian that is open closes what was spared until then, and nothing comes after it. -/
theorem performAll_once (name : String) {before : List (Action ρ)} (hbefore : .close ∉ before)
    (after : List (Action ρ)) (s : σ) :
    let first := (new name : Custodian ρ).performAll closing report before s
    first.2 = s ∧
      (new name : Custodian ρ).performAll closing report (before ++ .close :: after) s =
        ((first.1.1 ++ .ok .done :: after.map (refusal name), ⟨name, #[], [], true⟩),
          (closeResources closing report 0 (spared before) s).2) := by
  obtain ⟨answers, c, hrun, hname, hopen, hresources⟩ :=
    performAll_open closing report (c := new name) rfl hbefore s
  replace hresources : c.resources = spared before := hresources
  have hclose : c.perform closing report .close s = ((.ok .done, ⟨name, #[], [], true⟩),
      (closeResources closing report 0 (spared before) s).2) := by
    rw [perform_close, close, if_neg (by simp [hopen]), hresources, hname]
    rfl
  have hafter : performAll closing report ⟨name, #[], [], true⟩ after
      (closeResources closing report 0 (spared before) s).2 = _ :=
    performAll_closed closing report rfl after _
  refine ⟨congrArg Prod.snd hrun, ?_⟩
  simp only [performAll_append, hrun, performAll_cons closing report hclose, hafter]

/-! ## Closing, written down -/

/-- Closes a resource and writes down which one it was. -/
def logged (r : ρ) : StateM (σ × List ρ) (Except SessionError Unit) := fun s =>
  ((closing r s.1).1, (closing r s.1).2, s.2 ++ [r])

/-- A report leaves what was written down as it is. -/
def logging (index : Nat) (e : SessionError) : StateM (σ × List ρ) Unit := fun s =>
  ((), (report index e s.1).2, s.2)

theorem closeResources_cons (index : Nat) (r : ρ) (rest : List ρ) (s : σ) :
    (closeResources closing report index (r :: rest) s).2 =
      (closeResources closing report (index + 1) rest (match closing r s with
        | (.ok _, s) => s
        | (.error e, s) => (report index e s).2)).2 := by
  rcases h : closing r s with ⟨_ | _, s'⟩
  · simp only [closeResources, bind, StateT.bind, h]
    rfl
  · simp only [closeResources, bind, StateT.bind, h]

/-- All resources are closed, one after the other, whatever comes of each. -/
theorem closeResources_logged (index : Nat) (rs : List ρ) (s : σ) (log : List ρ) :
    (closeResources (logged closing) (logging report) index rs (s, log)).2 =
      ((closeResources closing report index rs s).2, log ++ rs) := by
  induction rs generalizing index s log with
  | nil =>
    rw [List.append_nil]
    rfl
  | cons r rest ih =>
    rw [closeResources_cons, closeResources_cons, logged, List.append_cons log r rest]
    rcases closing r s with ⟨_ | _, s'⟩
    · exact ih _ _ _
    · exact ih _ _ _

/-- Resources are closed once and in order, whatever else a custodian is asked and whichever of them
fail. None is closed before the custodian; the first close succeeds, closes those that nothing tracked
later has found finished and leaves nothing behind; after it every answer is a refusal, nothing is closed
and nothing changes. -/
theorem resources_closed_once (name : String) (before after : List (Action ρ))
    (hbefore : .close ∉ before) (s : σ) :
    let run := (new name : Custodian ρ).performAll (logged closing) (logging report)
    let closed := (closeResources closing report 0 (spared before) s).2
    (run before (s, [])).2 = (s, []) ∧
      run (before ++ [.close]) (s, []) =
        (((run before (s, [])).1.1 ++ [.ok .done], ⟨name, #[], [], true⟩), closed, spared before) ∧
      run (before ++ .close :: after) (s, []) =
        (((run before (s, [])).1.1 ++ .ok .done :: after.map (refusal name), ⟨name, #[], [], true⟩),
          closed, spared before) ∧
      (spared before).Sublist (before.filterMap Action.tracked?) ∧
      ∀ r, r ∈ spared before ↔ ∃ earlier finished later,
        before = earlier ++ .track finished r :: later ∧ ∀ a ∈ later, a.observes r = false := by
  intro run closed
  have hlog : (closeResources (logged closing) (logging report) 0 (spared before) (s, [])).2 =
      (closed, spared before) := closeResources_logged closing report 0 (spared before) s []
  have honce (after : List (Action ρ)) :=
    performAll_once (logged closing) (logging report) name hbefore after (s, [])
  rw [hlog] at honce
  exact ⟨(honce []).1, (honce []).2, (honce after).2, spared_sublist before, fun _ => mem_spared⟩

end

/-- Three resources are tracked. The second one has finished when the third is; the first one cannot be
closed. -/
def sampleTracking : List (Action Nat) :=
  [.track (fun _ => false) 10, .retain (.ofString "text"), .track (fun _ => false) 11, .get ⟨0⟩,
    .track (fun r => r == 11) 12]

/-- Closes a resource, or fails to, and counts the calls. -/
def sampleClosing (r : Nat) : StateM Nat (Except SessionError Unit) := fun calls =>
  (if r = 10 then .error .missingValue else .ok (), calls + 1)

theorem resources_closed_once_sample :
    .close ∉ sampleTracking ∧
      (new "sample").performAll (logged sampleClosing) (logging fun _ _ => pure ())
        (sampleTracking ++ [.close, .track (fun _ => true) 13, .close]) (0, []) =
      (([.ok .done, .ok (.issued ⟨0⟩), .ok .done, .ok (.value (.ofString "text")), .ok .done, .ok .done,
        .error (.retainAfterClose "sample"), .error (.closedTwice "sample")],
        ⟨"sample", #[], [], true⟩), 2, [10, 12]) := by
  have hopen : .close ∉ sampleTracking := by simp [sampleTracking]
  exact ⟨hopen, (resources_closed_once sampleClosing (fun _ _ => pure ()) "sample" sampleTracking
    [.track (fun _ => true) 13, .close] hopen 0).2.2.1.trans rfl⟩

end Custodian

end ProxySession
