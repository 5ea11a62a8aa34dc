import ProxySession.Proofs.Moments

/-!
# Handles stay good

While a context is open, the handle of every proxy that it handed out leads to the object that was
resolved first under the proxy's key, and the handle of every list that is alive to what was
converted, whatever else was given up. Lists give back handles that are theirs, so the context takes
each of them back.
-/

namespace ProxySession

namespace Holdings

variable {F : Multiset Reference} {h : Holdings} {c : ContextId}

theorem mem_shares {l : ListId} (hv : l.index < h.lists.size) (hc : (h.list l).context = c)
    (hl : (h.list l).clones ≠ 0) :
    ((h.list l).handle.index.toNat, (h.list l).origin) ∈ h.shares c := by
  refine (mem_total (f := NodeList.share c)).2 ⟨h.list l, ?_, ?_⟩
  · have hget : h.list l = h.lists[l.index] := by simp [Holdings.list, Array.getD, hv]
    rw [hget]
    exact Array.mem_toList_iff.2 (Array.getElem_mem hv)
  · rw [NodeList.share, if_pos ⟨hc, .inl hl⟩]
    exact Multiset.mem_singleton_self _

theorem get_list (hs : Sound F h) {l : ListId} (hv : l.index < h.lists.size)
    (ho : (h.context (h.list l).context).custodian.closed = false)
    (hb : (h.context (h.list l).context).custodian.slots.size ≤ 2 ^ 32)
    (hl : (h.list l).clones ≠ 0) :
    (h.context (h.list l).context).custodian.slots[(h.list l).handle.index.toNat]? =
      some (some (h.list l).origin) :=
  (hs.alive _ (hs.lists l hv) ho).keeps.origins hb _ (mem_shares hv rfl hl)

theorem get_proxy (hs : Sound F h) {ρ : Resolution} (hρ : ρ ∈ h.resolutions)
    (ho : (h.context ρ.proxy.context).custodian.closed = false)
    (hb : (h.context ρ.proxy.context).custodian.slots.size ≤ 2 ^ 32) :
    ∃ σ, firstResolution ρ.kind ρ.key (h.resolutionsOf ρ.proxy.context) = some σ ∧
      (h.context ρ.proxy.context).custodian.get ρ.proxy.handle = .ok (.object σ.object) := by
  have hk := (hs.alive _ (hs.resolutions ρ hρ) ho).keeps
  have hm : ρ ∈ h.resolutionsOf ρ.proxy.context :=
    List.mem_filter.2 ⟨Array.mem_toList_iff.2 hρ, by simp⟩
  have hentry := hk.entries ρ.kind ρ.key
  rw [(hk.proxies ρ hm).2] at hentry
  cases hf : firstResolution ρ.kind ρ.key (h.resolutionsOf ρ.proxy.context) with
  | none =>
    rw [hf] at hentry
    cases hentry
  | some σ =>
    rw [hf, Option.map_some, Option.some.injEq] at hentry
    refine ⟨σ, rfl, Custodian.get_of_holds ho ?_⟩
    rw [hentry]
    exact hk.objects hb ρ.kind ρ.key σ hf

theorem get_root (hs : Sound F h) (hv : c.index < h.contexts.size)
    (ho : (h.context c).custodian.closed = false)
    (hb : (h.context c).custodian.slots.size ≤ 2 ^ 32) {id : HandleId}
    (hid : id ∈ (h.context c).rootHandles) : ∃ v, (h.context c).custodian.get id = .ok v := by
  have hm : id.index.toNat ∈ (h.context c).custodian.occupied := by
    rw [← (hs.alive c hv ho).keeps.balanced hb]
    refine Multiset.mem_add.2 (.inl (Multiset.mem_add.2 (.inl ?_)))
    exact Multiset.mem_coe.2 (List.mem_map_of_mem hid)
  obtain ⟨v, hslot⟩ := Custodian.mem_occupied.1 hm
  exact ⟨v, Custodian.get_of_holds ho hslot⟩

end Holdings

/-! ## Dropping a list -/

/-- A live list is dropped without a word, also while the custodian is busy. -/
theorem World.dropList_events {F : Multiset Reference} {w : World} (hs : w.Sound F) (busy : Bool)
    {l : ListId} (hl : (w.list l).clones ≠ 0)
    (hb : (w.context (w.list l).context).custodian.slots.size ≤ 2 ^ 32) :
    (dropList busy l w).events = w.events := by
  have hv : l.index < w.lists.size := Holdings.valid_of_count (r := .list l) hl
  have hcell : ((w.updateList l fun cell => { cell with clones := cell.clones - 1 }).list l) =
      { w.list l with clones := (w.list l).clones - 1 } := by
    have hm := Holdings.list_modifyList l l
      (fun cell => { cell with clones := cell.clones - 1 }) w.toHoldings
    rwa [if_pos ⟨rfl, hv⟩] at hm
  have hd : dropList busy l w = if (w.list l).clones - 1 = 0
      then releaseList busy l (w.updateList l fun cell => { cell with clones := cell.clones - 1 })
      else w.updateList l fun cell => { cell with clones := cell.clones - 1 } := by
    rw [dropList, hcell]
  rw [hd]
  split
  · simp only [releaseList, hcell]
    split
    · rfl
    · next hopen =>
      cases busy with
      | true => rfl
      | false =>
        have ho : (w.context (w.list l).context).custodian.closed = false :=
          Bool.eq_false_iff.2 fun hc => hopen (.inr hc)
        have hrelease := Custodian.release_of_holds ho (Holdings.get_list hs hv ho hb hl)
        have hsame : ((w.updateList l fun cell => { cell with clones := cell.clones - 1 }).context
            (w.list l).context).custodian.release (w.list l).handle = .ok _ := hrelease
        simp only [Bool.false_eq_true, if_false]
        rw [hsame]
        rfl
  · rfl

namespace Session

variable (fuel : Nat) (heap : Heap) (scripts : List Script) (steps : List Step)

/-- Whatever a session can hold, an open context leads each of its proxies to the object that was
resolved first under the key, each live list to what was converted, and its first handles to
something. It takes back the handle of a live list and retains what it is given. -/
theorem handles_stay_good :
    (∀ h ∈ moments fuel heap scripts steps, Reached heap h) ∧
    (∀ h, Reached heap h → ∀ c : ContextId, c.index < h.contexts.size →
      (h.context c).custodian.closed = false → (h.context c).custodian.slots.size < 2 ^ 32 →
        (∀ ρ ∈ h.resolutions, ρ.proxy.context = c →
          ∃ σ, firstResolution ρ.kind ρ.key (h.resolutionsOf c) = some σ ∧
            (h.context c).custodian.get ρ.proxy.handle = .ok (.object σ.object)) ∧
        (∀ l : ListId, (h.list l).context = c → (h.list l).clones ≠ 0 →
          (h.context c).custodian.get (h.list l).handle = .ok (h.list l).origin ∧
            ∃ custodian, (h.context c).custodian.release (h.list l).handle = .ok custodian) ∧
        (∀ id ∈ (h.context c).rootHandles, ∃ v, (h.context c).custodian.get id = .ok v) ∧
        ∀ v, ∃ kept, (h.context c).custodian.retainHandle v = .ok kept) ∧
    (∀ h, Reached heap h → ∀ l, .list l ∈ h.variableReferences → (h.list l).clones ≠ 0) ∧
    ∀ w : World, Reached heap w.toHoldings → ∀ l : ListId, (w.list l).clones ≠ 0 →
      (w.context (w.list l).context).custodian.slots.size < 2 ^ 32 →
        ∀ busy, (w.dropList busy l).events = w.events := by
  refine ⟨moments_reached, fun h hr c hv ho hb => ?_, fun h hr l hl => ?_,
    fun w hr l hl hb busy => ?_⟩
  · obtain ⟨F, hs⟩ := hr.sound
    have hb' := Nat.le_of_lt hb
    refine ⟨fun ρ hρ hc => ?_, fun l hc hl => ?_, fun id hid => Holdings.get_root hs hv ho hb' hid,
      fun v => ?_⟩
    · subst hc
      exact Holdings.get_proxy hs hρ ho hb'
    · subst hc
      have hslot := Holdings.get_list hs (Holdings.valid_of_count (r := .list l) hl) ho hb' hl
      exact ⟨Custodian.get_of_holds ho hslot, _, Custodian.release_of_holds ho hslot⟩
    · rw [Custodian.retainHandle, if_neg (by simp [ho])]
      exact ⟨_, rfl⟩
  · obtain ⟨F, hs⟩ := hr.sound
    exact Holdings.count_of_variable hs hl
  · obtain ⟨F, hs⟩ := hr.sound
    exact World.dropList_events hs busy hl (Nat.le_of_lt hb)

/-- In the sample session the second of two objects of one number is reached through the handle of
the first, and the list that was dropped once through the clone that is left. -/
theorem handles_stay_good_sample :
    ∃ h ∈ moments 3 sampleHeap [] sampleSteps,
      (∃ ρ ∈ h.resolutions, ρ.object = ⟨4⟩ ∧
        (h.context ⟨0⟩).custodian.get ρ.proxy.handle = .ok (.object ⟨6⟩)) ∧
      (h.list ⟨0⟩).clones = 1 ∧
        (h.context ⟨0⟩).custodian.get (h.list ⟨0⟩).handle = .ok (.object ⟨7⟩) ∧
          ((sampleWorld 6).list ⟨0⟩).clones = 1 ∧
            ((sampleWorld 6).dropList false ⟨0⟩).events = (sampleWorld 6).events := by
  have hm := sampleMoment_mem (i := 2) (by decide +kernel)
  have hopen : (⟨0⟩ : ContextId).index < (sampleMoment 2).contexts.size ∧
      ((sampleMoment 2).context ⟨0⟩).custodian.closed = false ∧
      ((sampleMoment 2).context ⟨0⟩).custodian.slots.size < 2 ^ 32 := by decide +kernel
  have hsecond : ∃ ρ ∈ (sampleMoment 2).resolutions, ρ.object = ⟨4⟩ ∧ ρ.proxy.context = ⟨0⟩ ∧
      (firstResolution ρ.kind ρ.key ((sampleMoment 2).resolutionsOf ⟨0⟩)).map (·.object) =
        some ⟨6⟩ := by decide +kernel
  have hlist : ((sampleMoment 2).list ⟨0⟩).context = ⟨0⟩ ∧ ((sampleMoment 2).list ⟨0⟩).clones = 1 ∧
      ((sampleMoment 2).list ⟨0⟩).origin = .object ⟨7⟩ := by decide +kernel
  have hclones : ((sampleWorld 6).list ⟨0⟩).clones = 1 ∧ ((sampleWorld 6).context
      ((sampleWorld 6).list ⟨0⟩).context).custodian.slots.size < 2 ^ 32 := by decide +kernel
  obtain ⟨hreached, hgood, _, hdrop⟩ := handles_stay_good 3 sampleHeap [] sampleSteps
  obtain ⟨hproxies, hlists, _, _⟩ := hgood _ (hreached _ hm) ⟨0⟩ hopen.1 hopen.2.1 hopen.2.2
  obtain ⟨ρ, hρ, hobject, hctx, hfirst⟩ := hsecond
  obtain ⟨σ, hσ, hget⟩ := hproxies ρ hρ hctx
  rw [hσ, Option.map_some, Option.some.injEq] at hfirst
  rw [hfirst] at hget
  have hone : ((sampleMoment 2).list ⟨0⟩).clones ≠ 0 := by rw [hlist.2.1]; exact Nat.one_ne_zero
  have hfound := (hlists ⟨0⟩ hlist.1 hone).1
  rw [hlist.2.2] at hfound
  have hquiet := hdrop (sampleWorld 6) ⟨0, _, last_moves, rfl⟩ ⟨0⟩
    (by rw [hclones.1]; exact Nat.one_ne_zero) hclones.2 false
  exact ⟨_, hm, ⟨ρ, hρ, hobject, hget⟩, hlist.2.1, hfound, hclones.1, hquiet⟩

end Session

end ProxySession
