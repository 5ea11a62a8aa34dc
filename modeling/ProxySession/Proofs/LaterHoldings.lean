import ProxySession.Proofs.Growth

/-!
# Later holdings

What a session holds at one moment bounds what it can hold later: a closed context stays closed and
gets nothing new, and an open one keeps its entries.
-/

namespace ProxySession

namespace Holdings

/-- What a moment owes to an earlier one. -/
structure Later (h h' : Holdings) : Prop where
  closed : ∀ c, (h.context c).custodian.closed = true → (h'.context c).custodian.closed = true
  entries : ∀ c k, (h'.context c).custodian.closed = false →
    ((h.context c).identities k).entries <+: ((h'.context c).identities k).entries
  resolutions : ∃ new, h'.resolutions.toList = h.resolutions.toList ++ new ∧
    ∀ ρ ∈ new, (h.context ρ.proxy.context).custodian.closed = false
  lists : ∀ l, l.index < h'.lists.size →
    (h.context (h'.list l).context).custodian.closed = true →
      l.index < h.lists.size ∧ (h.list l).context = (h'.list l).context
  scanners : ∀ s, s.index < h'.scanners.size →
    (h.context (h'.scanner s).context).custodian.closed = true →
      s.index < h.scanners.size ∧ (h.scanner s).context = (h'.scanner s).context

namespace Later

variable {F F' : Multiset Reference} {h h' h'' : Holdings}

theorem refl (h : Holdings) : h.Later h :=
  ⟨fun _ => id, fun _ _ _ => List.prefix_rfl, ⟨[], (List.append_nil _).symm, by simp⟩,
    fun _ hl _ => ⟨hl, rfl⟩, fun _ hs _ => ⟨hs, rfl⟩⟩

theorem trans (h₁ : h.Later h') (h₂ : h'.Later h'') : h.Later h'' where
  closed c hc := h₂.closed c (h₁.closed c hc)
  entries c k ho := by
    have ho' : (h'.context c).custodian.closed = false := by
      by_contra hn
      rw [h₂.closed c (by simpa using hn)] at ho
      cases ho
    exact (h₁.entries c k ho').trans (h₂.entries c k ho)
  resolutions := by
    obtain ⟨new, hnew, hopen⟩ := h₁.resolutions
    obtain ⟨newer, hnewer, hopen'⟩ := h₂.resolutions
    refine ⟨new ++ newer, by rw [hnewer, hnew, List.append_assoc], fun ρ hρ => ?_⟩
    rcases List.mem_append.1 hρ with hρ | hρ
    · exact hopen ρ hρ
    · by_contra hn
      have hc := h₁.closed ρ.proxy.context (by simpa using hn)
      rw [hopen' ρ hρ] at hc
      cases hc
  lists l hl hc := by
    obtain ⟨hl', he'⟩ := h₂.lists l hl (h₁.closed _ hc)
    obtain ⟨hl₀, he⟩ := h₁.lists l hl' (he' ▸ hc)
    exact ⟨hl₀, he.trans he'⟩
  scanners s hs hc := by
    obtain ⟨hs', he'⟩ := h₂.scanners s hs (h₁.closed _ hc)
    obtain ⟨hs₀, he⟩ := h₁.scanners s hs' (he' ▸ hc)
    exact ⟨hs₀, he.trans he'⟩

/-! ## One step -/

theorem modifyContext (c : ContextId) {f : Context → Context}
    (hf : (h.context c).custodian.closed = true → (f (h.context c)).custodian.closed = true)
    (he : ∀ k, (f (h.context c)).custodian.closed = false →
      ((h.context c).identities k).entries <+: ((f (h.context c)).identities k).entries) :
    h.Later (h.modifyContext c f) := by
  refine ⟨fun d hd => ?_, fun d k ho => ?_, (refl h).resolutions, (refl h).lists,
    (refl h).scanners⟩
  · rw [context_modifyContext]
    split
    · next hcd =>
      obtain ⟨rfl, _⟩ := hcd
      exact hf hd
    · exact hd
  · rw [context_modifyContext] at ho ⊢
    split
    · next hcd =>
      rw [if_pos hcd] at ho
      obtain ⟨rfl, _⟩ := hcd
      exact he k ho
    · exact List.prefix_rfl

theorem relist {lists : Array NodeList} (hsize : lists.size = h.lists.size)
    (hcontext : ∀ m, (lists.getD m default).context = (h.lists.getD m default).context) :
    h.Later { h with lists } :=
  ⟨fun _ => id, fun _ _ _ => List.prefix_rfl, (refl h).resolutions,
    fun m hm _ => ⟨hsize ▸ hm, (hcontext m.index).symm⟩, (refl h).scanners⟩

theorem modifyList (l : ListId) {f : NodeList → NodeList}
    (hf : ∀ cell : NodeList, (f cell).context = cell.context) : h.Later (h.modifyList l f) := by
  refine relist Array.size_modify fun m => ?_
  rw [getD_modify]
  split
  · rw [hf]
  · rfl

theorem modifyScanner (s : ScannerId) {f : ScannerSession → ScannerSession}
    (hf : ∀ session : ScannerSession, (f session).context = session.context) :
    h.Later (h.modifyScanner s f) := by
  refine ⟨fun _ => id, fun _ _ _ => List.prefix_rfl, (refl h).resolutions, (refl h).lists,
    fun t ht _ => ?_⟩
  refine ⟨by simpa [Holdings.modifyScanner] using ht, ?_⟩
  rw [scanner_modifyScanner]
  split
  · rw [hf]
  · rfl

theorem take (r : Reference) : h.Later (h.take r) := by
  cases r with
  | list l => exact modifyList l fun _ => rfl
  | context c =>
    exact modifyContext c id fun k _ => by cases k <;> exact List.prefix_rfl
  | scanner s => exact modifyScanner s fun _ => rfl

theorem record {ρ : Resolution} (ho : (h.context ρ.proxy.context).custodian.closed = false) :
    h.Later (h.record ρ) := by
  refine ⟨fun _ => id, fun _ _ _ => List.prefix_rfl, ⟨[ρ], Array.toList_push .., fun σ hσ => ?_⟩,
    (refl h).lists, (refl h).scanners⟩
  rw [List.mem_singleton.1 hσ]
  exact ho

/-! ## Closing and giving back -/

theorem shutScanners (ss : List ScannerId) : h.Later (h.shutScanners ss) := by
  induction ss generalizing h with
  | nil => exact refl h
  | cons s rest ih => exact (modifyScanner s ScannerSession.shut_context).trans ih

theorem shutContext (c : ContextId) : h.Later (h.shutContext c) := by
  cases ho : (h.context c).custodian.closed with
  | true =>
    rw [shutContext_of_closed ho]
    exact refl h
  | false =>
    rw [shutContext_of_open ho]
    exact (shutScanners _).trans
      (modifyContext c (fun _ => rfl) fun _ hclosed => by cases hclosed)

theorem adjust (f : Nat → Nat) (r : Reference) : h.Later (h.adjust f r) := by
  cases r with
  | list l => exact modifyList l fun _ => rfl
  | context c => exact modifyContext c id fun k _ => by cases k <;> exact List.prefix_rfl
  | scanner s => exact modifyScanner s fun _ => rfl

theorem giveContext (c : ContextId) : h.Later (h.giveContext c) := by
  have hlower : h.Later (h.adjust (· - 1) (.context c)) := adjust _ _
  rw [giveContext_eq]
  split
  · exact hlower.trans (shutContext c)
  · exact hlower

theorem releaseList (l : ListId) : h.Later (h.releaseList false l) := by
  rcases releaseList_cases l h with ⟨he, _⟩ | ⟨custodian, ho, hok, he⟩
  · rw [he]
    exact refl h
  · rw [he]
    refine modifyContext _ (fun hc => ?_) fun k _ => by cases k <;> exact List.prefix_rfl
    rw [ho] at hc
    cases hc

theorem giveList (l : ListId) : h.Later (h.giveList false l) := by
  have hlower : h.Later (h.adjust (· - 1) (.list l)) := adjust _ _
  rw [giveList_eq]
  split
  · exact hlower.trans (releaseList l)
  · exact hlower

theorem giveScanner (s : ScannerId) : h.Later (h.giveScanner s) := by
  have hlower : h.Later (h.adjust (· - 1) (.scanner s)) := adjust _ _
  rw [giveScanner_eq]
  split
  · exact hlower.trans ((modifyScanner s ScannerSession.shut_context).trans (giveContext _))
  · exact hlower

theorem giveBack (r : Reference) : h.Later (h.giveBack r) := by
  cases r with
  | list l => exact giveList l
  | context c => exact giveContext c
  | scanner s => exact giveScanner s

/-! ## Growth -/

theorem enroll {c : ContextId} {k : ProxyKind} {key : Int64} (r : ObjectRef)
    (hv : c.index < h.contexts.size) (ho : (h.context c).custodian.closed = false) :
    h.Later (h.enroll c k r key) := by
  have hctx := enroll_context k r key hv
  refine ⟨fun d hd => ?_, fun d k' _ => ?_, ⟨[_], Array.toList_push .., ?_⟩, (refl h).lists,
    (refl h).scanners⟩
  · rw [hctx]
    split
    · next hcd =>
      subst hcd
      rw [ho] at hd
      cases hd
    · exact hd
  · rw [hctx]
    split
    · next hcd =>
      subst hcd
      rw [Context.enrolling_identities]
      split
      · next hk =>
        subst hk
        exact List.prefix_append _ _
      · exact List.prefix_rfl
    · exact List.prefix_rfl
  · rintro ρ hρ
    rw [List.mem_singleton.1 hρ]
    exact ho

theorem convert {c : ContextId} (v : Value) (length : Nat)
    (ho : (h.context c).custodian.closed = false) : h.Later (h.convert c v length) := by
  have hretain : h.Later (h.retain c v) :=
    modifyContext c id fun k _ => by cases k <;> exact List.prefix_rfl
  refine ⟨hretain.closed, hretain.entries, hretain.resolutions, fun l hl hc => ?_,
    hretain.scanners⟩
  rw [convert_list] at hc ⊢
  split at hc
  · rw [ho] at hc
    cases hc
  · next hne =>
    have hsz : (h.convert c v length).lists.size = h.lists.size + 1 := Array.size_push _
    rw [if_neg hne]
    exact ⟨by omega, rfl⟩

theorem openSession {c : ContextId} (text : String) (r : ObjectRef)
    (ho : (h.context c).custodian.closed = false) : h.Later (h.openSession c text r) := by
  have hpush : h.Later { h with scanners := h.scanners.push (freshSession c text r) } := by
    refine ⟨fun _ => id, fun _ _ _ => List.prefix_rfl, (refl h).resolutions, (refl h).lists,
      fun s hs hc => ?_⟩
    have hscanner := openSession_scanner c text r h s
    change Holdings.scanner { h with scanners := h.scanners.push (freshSession c text r) } s = _
      at hscanner
    rw [hscanner] at hc ⊢
    split at hc
    · change (h.context c).custodian.closed = true at hc
      rw [ho] at hc
      cases hc
    · next hne =>
      have hsz : (h.scanners.push (freshSession c text r)).size = h.scanners.size + 1 :=
        Array.size_push _
      rw [if_neg hne]
      exact ⟨by change s.index < (h.scanners.push _).size at hs; omega, rfl⟩
  refine hpush.trans (Later.trans (modifyContext c id ?_) (take (.context c)))
  exact fun k _ => by cases k <;> exact List.prefix_rfl

theorem openContext (cx : Context) : h.Later (h.openContext cx) := by
  have hnew (d : ContextId) (hd : d.index = h.contexts.size) : h.context d = default :=
    getD_of_size_le (Nat.le_of_eq hd.symm)
  refine ⟨fun d hd => ?_, fun d k ho => ?_, (refl h).resolutions, (refl h).lists,
    (refl h).scanners⟩
  · rw [openContext_context]
    split
    · next hs =>
      rw [hnew d hs] at hd
      cases hd
    · exact hd
  · rw [openContext_context]
    split
    · next hs =>
      rw [hnew d hs]
      cases k <;> exact List.nil_prefix
    · exact List.prefix_rfl

end Later

end Holdings

theorem Change.later {F F' : Multiset Reference} {h h' : Holdings} (hc : Change F h F' h')
    (hs : Holdings.Sound F h) : h.Later h' := by
  cases hc with
  | pending c failures tag => exact .modifyContext c id fun k _ => by cases k <;> exact List.prefix_rfl
  | hold hr => exact .take _
  | enter hr => exact .take _
  | drop r => exact .giveBack r
  | @free _ _ l owned h1 ho hc =>
    obtain ⟨lists, he, hsize, hcontext⟩ := Holdings.giveListOwning_eq owned l h
    rw [he]
    exact (Holdings.Later.giveBack (.list l)).trans (.relist hsize hcontext)
  | bind name item =>
    exact ⟨fun _ => id, fun _ _ _ => List.prefix_rfl, (Holdings.Later.refl h).resolutions,
      (Holdings.Later.refl h).lists, (Holdings.Later.refl h).scanners⟩
  | unbind name =>
    exact ⟨fun _ => id, fun _ _ _ => List.prefix_rfl, (Holdings.Later.refl h).resolutions,
      (Holdings.Later.refl h).lists, (Holdings.Later.refl h).scanners⟩
  | hit r he => exact .record (Holdings.open_of_entry hs he).2
  | miss r hc ho hn => exact .enroll r (Holdings.valid_of_owned hs hc) ho
  | convert v length hc ho => exact .convert v length ho
  | openSession text r hc ho => exact .openSession text r ho
  | openContext p token rules => exact .openContext _
  | shutContext c => exact .shutContext c
  | shutScanner s => exact .modifyScanner s ScannerSession.shut_context

/-! ## Contexts stay -/

namespace Holdings

variable {h : Holdings}

theorem giveContext_size (c : ContextId) : (h.giveContext c).contexts.size = h.contexts.size := by
  have hsize : (h.adjust (· - 1) (.context c)).contexts.size = h.contexts.size :=
    Array.size_modify
  rw [giveContext_eq]
  split
  · rw [shutContext_size, hsize]
  · exact hsize

theorem giveBack_size (r : Reference) : (h.giveBack r).contexts.size = h.contexts.size := by
  cases r with
  | list l =>
    rw [giveBack, giveList_eq]
    split
    · exact (releaseList_same l _).1
    · rfl
  | context c => exact giveContext_size c
  | scanner s =>
    rw [giveBack, giveScanner_eq]
    split
    · exact giveContext_size _
    · rfl

end Holdings

theorem Change.size_le {F F' : Multiset Reference} {h h' : Holdings} (hc : Change F h F' h') :
    h.contexts.size ≤ h'.contexts.size := by
  cases hc with
  | drop r => rw [Holdings.giveBack_size]
  | @free _ _ l owned h1 ho hc =>
    obtain ⟨lists, he, _⟩ := Holdings.giveListOwning_eq owned l h
    rw [he]
    exact Nat.le_of_eq (Holdings.giveBack_size (.list l)).symm
  | shutContext c => rw [Holdings.shutContext_size]
  | openContext p token rules =>
    rw [Holdings.openContext, Array.size_push]
    exact Nat.le_succ _
  | @hold _ _ r hr => cases r <;> simp [Holdings.take, Holdings.modifyContext, Holdings.modifyList,
      Holdings.modifyScanner]
  | _ => simp [Holdings.take, Holdings.modifyContext, Holdings.bind, Holdings.unbind,
      Holdings.record, Holdings.enroll, Holdings.addEntry, Holdings.retain, Holdings.convert,
      Holdings.openSession, Holdings.shutScanner, Holdings.modifyScanner]

/-- A context that is there stays there. -/
theorem Moves.size_le {F F' : Multiset Reference} {w w' : World} (hm : Moves F w F' w') :
    w.contexts.size ≤ w'.contexts.size :=
  hm.preserves (P := fun _ h => w.contexts.size ≤ h.contexts.size) (Nat.le_refl _)
    fun hc hle => hle.trans hc.size_le

/-! ## Runs of moves -/

/-- A run of moves keeps the invariant, and what is held at its end owes what it has to what was held
before it. -/
theorem Moves.sound_later {F F' : Multiset Reference} {w w' : World} (hm : Moves F w F' w')
    (hs : w.Sound F) : w'.Sound F' ∧ w.Later w'.toHoldings :=
  hm.preserves (P := fun G h => Holdings.Sound G h ∧ w.Later h) ⟨hs, .refl _⟩
    fun hc ⟨hsound, hlater⟩ => ⟨hc.sound hsound, hlater.trans (hc.later hsound)⟩

/-- What the changes keep where the invariant holds, a run of moves keeps. -/
theorem Moves.preserves_sound {P : Holdings → Prop} {F F' : Multiset Reference} {w w' : World}
    (hm : Moves F w F' w') (hs : w.Sound F) (hstart : P w.toHoldings)
    (hchange : ∀ {G G' : Multiset Reference} {h h' : Holdings}, Change G h G' h' → Holdings.Sound G h →
      P h → P h') : P w'.toHoldings :=
  (hm.preserves (P := fun G h => Holdings.Sound G h ∧ P h) ⟨hs, hstart⟩
    fun hc ⟨hsound, hp⟩ => ⟨hc.sound hsound, hchange hc hsound hp⟩).2

end ProxySession
