import ProxySession.Proofs.Closings

/-!
# Giving back keeps the invariant

The last reference to a context closes it. The last clone of a list frees its slot, or leaves it to the
context while the custodian is busy, and the last clone of a scanner session closes the session and gives
its own reference to the context back.
Variables exchange references with the running operations.
-/

namespace ProxySession

namespace Holdings

variable {F F' : Multiset Reference} {h h' h'' : Holdings}

theorem Undisturbed.trans {c : ContextId} (u : Undisturbed h h' c) (v : Undisturbed h' h'' c) :
    Undisturbed h h'' c where
  alike := {
    custodian := v.alike.custodian.trans u.alike.custodian
    identities := fun k => (v.alike.identities k).trans (u.alike.identities k)
    rootHandles := v.alike.rootHandles.trans u.alike.rootHandles }
  sessions s hs := u.sessions s (v.sessions s hs)
  shares := v.shares.trans u.shares
  resolutions := v.resolutions.trans u.resolutions

/-- The invariant is kept if one context stays in order and the others see nothing. -/
theorem Sound.around (hs : Sound F h) (c : ContextId)
    (hsize : h'.contexts.size = h.contexts.size) (hbindings : h'.bindings = h.bindings)
    (hcounts : ∀ r, h'.count r = h'.owners F' r)
    (hlists : ∀ l, l.index < h'.lists.size → (h'.list l).context.index < h.contexts.size)
    (hleft : ∀ l, (h'.list l).left = true → (h'.list l).clones = 0)
    (hscanners : ∀ s, s.index < h'.scanners.size →
      (h'.scanner s).context.index < h.contexts.size)
    (hresolutions : ∀ ρ ∈ h'.resolutions, ρ.proxy.context.index < h.contexts.size)
    (hu : ∀ d, c ≠ d → Undisturbed h h' d)
    (hclosed : (h'.context c).custodian.closed = (h.context c).custodian.closed)
    (hrefs : ∀ d, (h.context d).references ≠ 0 → (h'.context d).references ≠ 0)
    (halive : c.index < h.contexts.size → (h.context c).custodian.closed = false → h'.Alive c)
    (hended : (h.context c).custodian.closed = true → h'.Ended c) : Sound F' h' := by
  have hsame (d : ContextId) :
      (h'.context d).custodian.closed = (h.context d).custodian.closed := by
    by_cases hd : c = d
    · exact hd ▸ hclosed
    · rw [(hu d hd).alike.custodian]
  refine ⟨⟨?names, hcounts, ?lists, hleft, ?scanners, ?resolutions, fun d hv ho => ?alive,
    fun d ho => ?ended⟩, fun d hv ho => ?referenced⟩
  case names =>
    rw [hbindings]
    exact hs.names
  case lists => rwa [hsize]
  case scanners => rwa [hsize]
  case resolutions => rwa [hsize]
  case alive =>
    rw [hsize] at hv
    rw [hsame] at ho
    by_cases hd : c = d
    · subst hd
      exact halive hv ho
    · exact (hu d hd).alive (hs.alive d hv ho)
  case ended =>
    rw [hsame] at ho
    by_cases hd : c = d
    · subst hd
      exact hended ho
    · exact (hu d hd).ended (hs.ended d ho)
  case referenced =>
    rw [hsize] at hv
    rw [hsame] at ho
    exact hrefs d (hs.referenced d hv ho)

/-! ## The last one and the others -/

theorem lower_count_self (r : Reference) : (h.adjust (· - 1) r).count r = h.count r - 1 := by
  by_cases hr : h.count r = 0
  · cases r with
    | list l =>
      simp only [adjust, count, list_modifyList] at hr ⊢
      split
      · rfl
      · omega
    | context c =>
      simp only [adjust, count, context_modifyContext] at hr ⊢
      split
      · rfl
      · omega
    | scanner s =>
      simp only [adjust, count, scanner_modifyScanner] at hr ⊢
      split
      · rfl
      · omega
  · rw [count_adjust hr, if_pos rfl]

theorem lower_scanner_context (s t : ScannerId) :
    ((h.adjust (· - 1) (.scanner s)).scanner t).context = (h.scanner t).context := by
  rw [adjust, scanner_modifyScanner]
  split <;> rfl

/-- The last reference to a context closes it. -/
theorem giveContext_eq (c : ContextId) (h : Holdings) : h.giveContext c =
    if (h.context c).references ≤ 1 then (h.adjust (· - 1) (.context c)).shutContext c
    else h.adjust (· - 1) (.context c) := by
  have hcount : ((h.adjust (· - 1) (.context c)).context c).references =
      (h.context c).references - 1 := lower_count_self (.context c)
  have hg : h.giveContext c = if ((h.adjust (· - 1) (.context c)).context c).references = 0
      then (h.adjust (· - 1) (.context c)).shutContext c
      else h.adjust (· - 1) (.context c) := rfl
  rw [hg, hcount]
  exact if_congr (by omega) rfl rfl

/-- With its last clone a list gives its handle back. -/
theorem giveList_eq (busy : Bool) (l : ListId) (h : Holdings) : h.giveList busy l =
    if (h.list l).clones ≤ 1 then (h.adjust (· - 1) (.list l)).releaseList busy l
    else h.adjust (· - 1) (.list l) := by
  have hcount : ((h.adjust (· - 1) (.list l)).list l).clones = (h.list l).clones - 1 :=
    lower_count_self (.list l)
  have hg : h.giveList busy l = if ((h.adjust (· - 1) (.list l)).list l).clones = 0
      then (h.adjust (· - 1) (.list l)).releaseList busy l else h.adjust (· - 1) (.list l) := rfl
  rw [hg, hcount]
  exact if_congr (by omega) rfl rfl

/-- The last clone of a scanner session closes it and gives its reference to its context back. -/
theorem giveScanner_eq (s : ScannerId) (h : Holdings) : h.giveScanner s =
    if (h.scanner s).clones ≤ 1 then
      ((h.adjust (· - 1) (.scanner s)).shutScanner s).giveContext (h.scanner s).context
    else h.adjust (· - 1) (.scanner s) := by
  have hcount : ((h.adjust (· - 1) (.scanner s)).scanner s).clones = (h.scanner s).clones - 1 :=
    lower_count_self (.scanner s)
  have hg : h.giveScanner s = if ((h.adjust (· - 1) (.scanner s)).scanner s).clones = 0
      then ((h.adjust (· - 1) (.scanner s)).shutScanner s).giveContext
        ((h.adjust (· - 1) (.scanner s)).scanner s).context
      else h.adjust (· - 1) (.scanner s) := rfl
  rw [hg, hcount, lower_scanner_context]
  exact if_congr (by omega) rfl rfl

/-! ## Contexts -/

theorem giveContext_sound {c : ContextId} (hs : Sound (.context c ::ₘ F) h) :
    Sound F (h.giveContext c) := by
  have hc₁ : Consistent F (h.adjust (· - 1) (.context c)) :=
    lower_consistent hs.toConsistent (.inr ⟨c, rfl⟩)
  have hsize : (h.adjust (· - 1) (.context c)).contexts.size = h.contexts.size := by
    simp [adjust, modifyContext]
  have hother (d : ContextId) (hd : c ≠ d) :
      (h.adjust (· - 1) (.context c)).context d = h.context d := by
    rw [adjust, context_modifyContext, if_neg fun hcd => hd hcd.1]
  by_cases hr : ((h.adjust (· - 1) (.context c)).context c).references = 0
  · have hg : h.giveContext c = (h.adjust (· - 1) (.context c)).shutContext c := if_pos hr
    rw [hg]
    refine ⟨shutContext_consistent hc₁ c, fun d hv ho => ?_⟩
    rw [shutContext_size] at hv
    obtain ⟨hd, ho⟩ := open_of_shutContext hv ho
    rw [shutContext_references, hother d hd]
    rw [hother d hd] at ho
    exact hs.referenced d (hsize ▸ hv) ho
  · have hg : h.giveContext c = h.adjust (· - 1) (.context c) := if_neg hr
    rw [hg]
    refine ⟨hc₁, fun d hv ho => ?_⟩
    by_cases hd : c = d
    · subst hd
      exact hr
    · rw [hother d hd] at ho ⊢
      exact hs.referenced d (hsize ▸ hv) ho

/-! ## Lists -/

theorem lower_list (l m : ListId) :
    ((h.adjust (· - 1) (.list l)).list m).context = (h.list m).context := by
  rw [adjust, list_modifyList]
  split <;> rfl

theorem lower_last {l : ListId} (h1 : (h.list l).clones = 1) :
    (h.adjust (· - 1) (.list l)).list l = { h.list l with clones := 0 } := by
  have hv : l.index < h.lists.size :=
    valid_of_count (r := .list l) (by rw [count, h1]; exact Nat.one_ne_zero)
  rw [adjust, list_modifyList, if_pos ⟨rfl, hv⟩, h1]

/-- A list with a clone is not left. -/
theorem not_left (hc : Consistent F h) {l : ListId} (hl : (h.list l).clones ≠ 0) :
    (h.list l).left = false :=
  Bool.eq_false_of_not_eq_true (mt (hc.left l) hl)

theorem lower_left (hc : Consistent F h) {l : ListId} (hl : (h.list l).clones ≠ 0) (m : ListId)
    (hm : ((h.adjust (· - 1) (.list l)).list m).left = true) :
    ((h.adjust (· - 1) (.list l)).list m).clones = 0 := by
  rw [adjust, list_modifyList] at hm ⊢
  split at hm
  · next he =>
    rw [← he.1, not_left hc hl] at hm
    cases hm
  · next he =>
    rw [if_neg he]
    exact hc.left m hm

/-- With its last clone a list that is not left keeps nothing any more. -/
theorem shares_last {l : ListId} (h1 : (h.list l).clones = 1) (hl : (h.list l).left = false) (d : ContextId) :
    h.shares d = (if (h.list l).context = d
      then {((h.list l).handle.index.toNat, (h.list l).origin)} else 0) +
        (h.adjust (· - 1) (.list l)).shares d := by
  have hv : l.index < h.lists.size :=
    valid_of_count (r := .list l) (by rw [count, h1]; exact Nat.one_ne_zero)
  have ht : (h.adjust (· - 1) (.list l)).shares d + (h.list l).share d =
      h.shares d + NodeList.share d { h.list l with clones := (h.list l).clones - 1 } :=
    total_modify (NodeList.share d) (fun cell => { cell with clones := cell.clones - 1 }) default hv
  have hold : (h.list l).share d = if (h.list l).context = d
      then {((h.list l).handle.index.toNat, (h.list l).origin)} else 0 := by
    simp [NodeList.share, h1]
  have hnew : NodeList.share d { h.list l with clones := (h.list l).clones - 1 } = 0 := by
    simp [NodeList.share, h1, hl]
  rw [hnew, add_zero, add_comm] at ht
  rw [← hold, ht]

/-- Whatever the context answers, only its custodian changes. -/
theorem releaseList_cases (l : ListId) (h : Holdings) :
    (h.releaseList false l = h ∧
      ((h.context (h.list l).context).references = 0 ∨
        (h.context (h.list l).context).custodian.closed = true ∨
        ∃ e, (h.context (h.list l).context).custodian.release (h.list l).handle = .error e)) ∨
    ∃ custodian, (h.context (h.list l).context).custodian.closed = false ∧
      (h.context (h.list l).context).custodian.release (h.list l).handle = .ok custodian ∧
        h.releaseList false l = h.modifyContext (h.list l).context fun cx => { cx with custodian } := by
  simp only [releaseList, Bool.false_eq_true, if_false]
  split
  · next hc => exact .inl ⟨rfl, hc.imp_right .inl⟩
  · next hc =>
    cases hr : (h.context (h.list l).context).custodian.release (h.list l).handle with
    | ok custodian => exact .inr ⟨custodian, by simpa using fun hh => hc (.inr hh), rfl, rfl⟩
    | error e => exact .inl ⟨rfl, .inr (.inr ⟨e, rfl⟩)⟩

/-- The context of a list that is given up keeps all but that list. -/
theorem releaseList_alive {l : ListId} {c : ContextId} (hv : c.index < h.contexts.size)
    (ho : (h.context c).custodian.closed = false) (hr : (h.context c).references ≠ 0)
    (hl : (h.list l).context = c) (ht : ∀ s, h.OpenOn s c → s ∈ (h.context c).custodian.resources)
    (hk : (h.context c).Keeps
      (((h.list l).handle.index.toNat, (h.list l).origin) ::ₘ h.shares c) (h.resolutionsOf c)) :
    (h.releaseList false l).Alive c := by
  subst hl
  rcases releaseList_cases l h with ⟨he, hwhy⟩ | ⟨custodian, _, hok, he⟩
  · rw [he]
    refine ⟨ht, ?_⟩
    rcases hwhy with h0 | hclosed | ⟨e, herr⟩
    · exact absurd h0 hr
    · rw [ho] at hclosed
      cases hclosed
    · exact hk.of_refused ho herr
  · rw [he]
    have hx : (h.modifyContext (h.list l).context fun cx => { cx with custodian }).context
        (h.list l).context = { h.context (h.list l).context with custodian } := by
      rw [context_modifyContext, if_pos ⟨rfl, hv⟩]
    refine ⟨fun s hs => ?_, ?_⟩
    · rw [hx]
      change s ∈ custodian.resources
      rw [Context.Keeps.release_cases hok]
      exact ht s ⟨hs.valid, hs.context, hs.isOpen⟩
    · rw [hx]
      exact hk.released hok

theorem releaseList_undisturbed {l : ListId} {d : ContextId} (hd : (h.list l).context ≠ d) :
    Undisturbed h (h.releaseList false l) d := by
  rcases releaseList_cases l h with ⟨he, _⟩ | ⟨custodian, _, _, he⟩
  · rw [he]
    exact ⟨Context.Alike.refl _, fun _ hs => hs, rfl, rfl⟩
  · rw [he]
    refine ⟨?_, fun _ hs => ⟨hs.valid, hs.context, hs.isOpen⟩, rfl, rfl⟩
    rw [context_modifyContext, if_neg fun hc => hd hc.1]
    exact Context.Alike.refl _

theorem releaseList_count (l : ListId) (h : Holdings) (r : Reference) :
    (h.releaseList false l).count r = h.count r := by
  rcases releaseList_cases l h with ⟨he, _⟩ | ⟨custodian, _, _, he⟩
  · rw [he]
  · rw [he]
    cases r with
    | context d =>
      simp only [count, context_modifyContext]
      split <;> rfl
    | _ => rfl

theorem releaseList_same (l : ListId) (h : Holdings) :
    (h.releaseList false l).contexts.size = h.contexts.size ∧ (h.releaseList false l).lists = h.lists ∧
      (h.releaseList false l).scanners = h.scanners ∧ (h.releaseList false l).bindings = h.bindings ∧
        (h.releaseList false l).resolutions = h.resolutions := by
  rcases releaseList_cases l h with ⟨he, _⟩ | ⟨custodian, _, _, he⟩
  · rw [he]
    exact ⟨rfl, rfl, rfl, rfl, rfl⟩
  · rw [he]
    exact ⟨Array.size_modify, rfl, rfl, rfl, rfl⟩

theorem releaseList_closed (l : ListId) (h : Holdings) (d : ContextId) :
    ((h.releaseList false l).context d).custodian.closed = (h.context d).custodian.closed := by
  rcases releaseList_cases l h with ⟨he, _⟩ | ⟨custodian, _, hok, he⟩
  · rw [he]
  · rw [he, context_modifyContext]
    split
    · next hd =>
      rw [← hd.1]
      change custodian.closed = _
      rw [Context.Keeps.release_cases hok]
    · rfl

theorem owners_releaseList (l : ListId) (F : Multiset Reference) (h : Holdings) (r : Reference) :
    (h.releaseList false l).owners F r = h.owners F r := by
  obtain ⟨_, _, hscanners, hbindings, _⟩ := releaseList_same l h
  rw [owners, variableReferences, hbindings]
  cases r with
  | context d => rw [staked, hscanners]; rfl
  | _ => rfl

/-- Only the context of a list sees its last clone go. -/
theorem giveList_undisturbed {l : ListId} {d : ContextId} (h1 : (h.list l).clones = 1)
    (hl : (h.list l).left = false) (hd : (h.list l).context ≠ d) :
    Undisturbed h ((h.adjust (· - 1) (.list l)).releaseList false l) d := by
  have hlower : Undisturbed h (h.adjust (· - 1) (.list l)) d := by
    refine ⟨Context.Alike.refl _, fun _ ht => ⟨ht.valid, ht.context, ht.isOpen⟩, ?_, rfl⟩
    rw [shares_last h1 hl d, if_neg hd, zero_add]
  exact hlower.trans (releaseList_undisturbed (by rwa [lower_last h1]))

theorem giveList_last {l : ListId} (hs : Sound (.list l ::ₘ F) h)
    (h1 : (h.list l).clones = 1) : Sound F (h.giveList false l) := by
  have hcount := count_of_owned hs.toConsistent
  have hcell := lower_last h1
  have hl := not_left hs.toConsistent hcount
  obtain ⟨hsize, hlists, hscanners, hbindings, hresolutions⟩ :=
    releaseList_same l (h.adjust (· - 1) (.list l))
  have hcounts := releaseList_count l (h.adjust (· - 1) (.list l))
  have hclosed := releaseList_closed l (h.adjust (· - 1) (.list l))
  rw [giveList_eq, if_pos (Nat.le_of_eq h1)]
  refine hs.around (h.list l).context hsize hbindings (fun r => ?counts) (fun m hm => ?lists)
    (fun m hm => ?left) (fun t ht => ?scanners) (fun ρ hρ => ?resolutions)
    (fun d hd => giveList_undisturbed h1 hl hd) (hclosed _) (fun d hd => ?references) (fun hv ho => ?alive)
    fun ho => ?ended
  case counts =>
    have hlower : (h.adjust (· - 1) (.list l)).owners F r = h.owners F r := by cases r <;> rfl
    rw [hcounts, owners_releaseList, hlower, lower_count hs.toConsistent]
  case lists =>
    rw [hlists] at hm
    have hctx := hs.lists m (by simpa [adjust, modifyList] using hm)
    rw [← lower_list l m] at hctx
    rw [Holdings.list, hlists]
    exact hctx
  case left =>
    rw [Holdings.list, hlists] at hm ⊢
    exact (lower_left hs.toConsistent hcount) m hm
  case scanners =>
    rw [hscanners] at ht
    rw [Holdings.scanner, hscanners]
    exact hs.scanners t ht
  case resolutions =>
    rw [hresolutions] at hρ
    exact hs.resolutions ρ hρ
  case references =>
    change ((h.adjust (· - 1) (.list l)).releaseList false l).count (.context d) ≠ 0
    rw [hcounts]
    exact hd
  case alive =>
    -- With its last clone the list has no share any more, and its slot is the one that is released.
    have ha := hs.alive _ hv ho
    have hk := ha.keeps
    rw [shares_last h1 hl, if_pos rfl, Multiset.singleton_add] at hk
    refine releaseList_alive hv ho (hs.referenced _ hv ho) (by rw [hcell])
      (fun t ht => ha.tracked t ⟨ht.valid, ht.context, ht.isOpen⟩) ?_
    rw [hcell]
    exact hk
  case ended =>
    have he := hs.ended _ ho
    have hsame : (h.adjust (· - 1) (.list l)).releaseList false l = h.adjust (· - 1) (.list l) :=
      if_pos (.inr (by rw [hcell]; exact ho))
    rw [hsame]
    exact ⟨he.slots, he.resources, he.entries,
      fun t ht => he.sessions t ⟨ht.valid, ht.context, ht.isOpen⟩⟩

/-! ### A custodian that is busy -/

/-- The last clone that goes while the custodian of an open context is busy is left there. -/
theorem giveList_leave {l : ListId} (h1 : (h.list l).clones = 1)
    (ho : (h.context (h.list l).context).custodian.closed = false)
    (hr : (h.context (h.list l).context).references ≠ 0) : h.giveList true l =
      (h.adjust (· - 1) (.list l)).modifyList l fun cell => { cell with left := true } := by
  have hopen : ¬(((h.adjust (· - 1) (.list l)).context (h.list l).context).references = 0 ∨
      ((h.adjust (· - 1) (.list l)).context (h.list l).context).custodian.closed = true) := by
    rintro (h0 | hc)
    · exact hr h0
    · exact Bool.false_ne_true (ho.symm.trans hc)
  rw [giveList_eq, if_pos (Nat.le_of_eq h1), releaseList, lower_last h1]
  exact if_neg hopen

/-- A list that is left keeps what it kept with its last clone. -/
theorem shares_leave {l : ListId} (h1 : (h.list l).clones = 1) (hl : (h.list l).left = false) (d : ContextId) :
    ((h.adjust (· - 1) (.list l)).modifyList l fun cell => { cell with left := true }).shares d =
      h.shares d := by
  have hv : l.index < (h.adjust (· - 1) (.list l)).lists.size := by
    rw [adjust, modifyList, Array.size_modify]
    exact valid_of_count (r := .list l) (by rw [count, h1]; exact Nat.one_ne_zero)
  have hcell : (h.adjust (· - 1) (.list l)).lists.getD l.index default = { h.list l with clones := 0 } :=
    lower_last h1
  have ht := total_modify (NodeList.share d) (fun cell => { cell with left := true }) default hv
  rw [hcell] at ht
  have hlower : NodeList.share d { h.list l with clones := 0 } = 0 := by simp [NodeList.share, hl]
  have hleft : NodeList.share d { h.list l with clones := 0, left := true } =
      if (h.list l).context = d then {((h.list l).handle.index.toNat, (h.list l).origin)} else 0 := by
    simp [NodeList.share]
  rw [hlower, hleft, add_zero, add_comm] at ht
  rw [shares_last h1 hl d]
  exact ht

/-- The handle that the last clone leaves behind while the custodian is busy stays on account. -/
theorem giveList_left {l : ListId} (hs : Sound (.list l ::ₘ F) h) (h1 : (h.list l).clones = 1)
    (ho : (h.context (h.list l).context).custodian.closed = false) : Sound F (h.giveList true l) := by
  have hcount := count_of_owned hs.toConsistent
  have hv : l.index < h.lists.size := valid_of_count hcount
  have hl := not_left hs.toConsistent hcount
  rw [giveList_leave h1 ho (hs.referenced _ (hs.lists l hv) ho)]
  have hlist (m : ListId) := list_modifyList l m (fun cell => { cell with left := true })
    (h.adjust (· - 1) (.list l))
  refine ⟨hs.toConsistent.quiet (fun d => ?undisturbed) rfl hs.names (fun r => ?counts) ?lists
    (fun m => ?contexts) (fun m hm => ?left) rfl (fun _ => rfl) rfl, hs.referenced⟩
  case undisturbed =>
    exact ⟨Context.Alike.refl _, fun _ ht => ⟨ht.valid, ht.context, ht.isOpen⟩, shares_leave h1 hl d, rfl⟩
  case counts =>
    have hsame : ((h.adjust (· - 1) (.list l)).modifyList l fun cell => { cell with left := true }).count r =
        (h.adjust (· - 1) (.list l)).count r := by
      cases r with
      | list m =>
        simp only [count, hlist]
        split <;> rfl
      | _ => rfl
    have howners : ((h.adjust (· - 1) (.list l)).modifyList l fun cell => { cell with left := true }).owners F r =
        h.owners F r := by cases r <;> rfl
    rw [hsame, howners, lower_count hs.toConsistent]
  case lists => simp [adjust, modifyList]
  case contexts =>
    rw [hlist]
    split
    · exact lower_list l m
    · exact lower_list l m
  case left =>
    rw [hlist] at hm ⊢
    split at hm
    · next hlm =>
      rw [if_pos hlm, ← hlm.1, lower_last h1]
    · next hlm =>
      rw [if_neg hlm]
      exact lower_left hs.toConsistent hcount m hm

/-- In a closed context it does not matter whether the custodian is busy. -/
theorem giveList_of_closed {l : ListId} (h1 : (h.list l).clones = 1)
    (ho : (h.context (h.list l).context).custodian.closed = true) (busy : Bool) :
    h.giveList busy l = h.adjust (· - 1) (.list l) := by
  rw [giveList_eq, if_pos (Nat.le_of_eq h1), releaseList, lower_last h1]
  exact if_pos (.inr ho)

theorem giveList_sound {l : ListId} (hs : Sound (.list l ::ₘ F) h) (busy : Bool) :
    Sound F (h.giveList busy l) := by
  have hcount : (h.list l).clones ≠ 0 := count_of_owned hs.toConsistent
  by_cases h1 : (h.list l).clones = 1
  · cases ho : (h.context (h.list l).context).custodian.closed with
    | true =>
      rw [giveList_of_closed h1 ho, ← giveList_of_closed h1 ho false]
      exact giveList_last hs h1
    | false =>
      cases busy with
      | false => exact giveList_last hs h1
      | true => exact giveList_left hs h1 ho
  · rw [giveList_eq, if_neg (by omega)]
    exact ⟨lower_consistent hs.toConsistent (.inl h1), hs.referenced⟩

theorem giveLists_busy_sound : (owned : List ListId) → {h : Holdings} →
    Sound (owned.map Reference.list + F) h → Sound F (owned.foldl (fun h m => h.giveList true m) h)
  | [], h, hs => by
    rw [List.map_nil, Multiset.coe_nil, zero_add] at hs
    exact hs
  | m :: rest, h, hs => by
    rw [List.map_cons, ← Multiset.cons_coe, Multiset.cons_add] at hs
    exact giveLists_busy_sound rest (giveList_sound hs true)

theorem giveListOwning_sound {owned : List ListId} {l : ListId}
    (hs : Sound (.list l ::ₘ (owned.map Reference.list + F)) h) : Sound F (h.giveListOwning owned l) :=
  giveLists_busy_sound owned (giveList_sound hs false)

/-- Clones that go while the custodian is busy change nothing but the lists. -/
theorem giveList_busy (l : ListId) (h : Holdings) : ∃ lists, h.giveList true l = { h with lists } ∧
    lists.size = h.lists.size ∧ ∀ m, (lists.getD m default).context = (h.lists.getD m default).context := by
  let lower (cell : NodeList) : NodeList := { cell with clones := cell.clones - 1 }
  let leave (cell : NodeList) : NodeList := { cell with left := true }
  have hcell (xs : Array NodeList) (f : NodeList → NodeList) (hf : ∀ cell, (f cell).context = cell.context)
      (m : Nat) : ((xs.modify l.index f).getD m default).context = (xs.getD m default).context := by
    rw [getD_modify]
    split
    · exact hf _
    · rfl
  have hlower : h.adjust (· - 1) (.list l) = { h with lists := h.lists.modify l.index lower } := rfl
  have hsize : (h.lists.modify l.index lower).size = h.lists.size := Array.size_modify
  have hcontext := hcell h.lists lower fun _ => rfl
  rw [giveList_eq, releaseList, hlower]
  split
  · split
    · exact ⟨_, rfl, hsize, hcontext⟩
    · refine ⟨(h.lists.modify l.index lower).modify l.index leave, rfl, ?_, fun m => ?_⟩
      · rw [Array.size_modify, hsize]
      · exact (hcell _ leave (fun _ => rfl) m).trans (hcontext m)
  · exact ⟨_, rfl, hsize, hcontext⟩

theorem giveLists_busy : (owned : List ListId) → (h : Holdings) →
    ∃ lists, owned.foldl (fun h m => h.giveList true m) h = { h with lists } ∧
      lists.size = h.lists.size ∧ ∀ m, (lists.getD m default).context = (h.lists.getD m default).context
  | [], h => ⟨h.lists, rfl, rfl, fun _ => rfl⟩
  | m :: rest, h => by
    obtain ⟨lists, he, hsize, hcontext⟩ := giveList_busy m h
    obtain ⟨lists', he', hsize', hcontext'⟩ := giveLists_busy rest (h.giveList true m)
    rw [he] at he' hsize' hcontext'
    refine ⟨lists', ?_, hsize'.trans hsize, fun n => (hcontext' n).trans (hcontext n)⟩
    rw [List.foldl_cons, he, he']

/-- Apart from the lists, what goes with a list changes nothing more than the list does. -/
theorem giveListOwning_eq (owned : List ListId) (l : ListId) (h : Holdings) :
    ∃ lists, h.giveListOwning owned l = { h.giveBack (.list l) with lists } ∧
      lists.size = (h.giveBack (.list l)).lists.size ∧
        ∀ m, (lists.getD m default).context = ((h.giveBack (.list l)).lists.getD m default).context :=
  giveLists_busy owned (h.giveList false l)

/-! ## Scanner sessions -/

/-- Without a clone a scanner session is no owner of its context any more. -/
theorem staked_last {s : ScannerId} (hv : s.index < h.scanners.size)
    (h1 : (h.scanner s).clones = 1) (c : ContextId) :
    (h.adjust (· - 1) (.scanner s)).staked (.context c) +
      (if c = (h.scanner s).context then 1 else 0) = h.staked (.context c) := by
  have ht : (h.adjust (· - 1) (.scanner s)).staked (.context c) + (h.scanner s).stake c =
      h.staked (.context c) +
        ScannerSession.stake c { h.scanner s with clones := (h.scanner s).clones - 1 } :=
    total_modify (ScannerSession.stake c)
      (fun session => { session with clones := session.clones - 1 }) default hv
  have hold : (h.scanner s).stake c = if c = (h.scanner s).context then 1 else 0 := by
    simp [ScannerSession.stake, h1, eq_comm]
  have hnew : ScannerSession.stake c { h.scanner s with clones := (h.scanner s).clones - 1 } = 0 := by
    simp [ScannerSession.stake, h1]
  rw [← hold, ht, hnew, Nat.add_zero]

/-- With its last clone a scanner session gives its reference to its context to whoever drops it. -/
theorem lower_scanner_last {s : ScannerId} (hs : Sound (.scanner s ::ₘ F) h)
    (h1 : (h.scanner s).clones = 1) :
    Sound (.context (h.scanner s).context ::ₘ F) (h.adjust (· - 1) (.scanner s)) := by
  have hcount := count_of_owned hs.toConsistent
  have hv : s.index < h.scanners.size := valid_of_count hcount
  have hu (d : ContextId) : Undisturbed h (h.adjust (· - 1) (.scanner s)) d :=
    modifyScanner_undisturbed (f := fun session => { session with clones := session.clones - 1 })
      (fun _ => ⟨rfl, id⟩) d
  refine ⟨hs.toConsistent.quiet hu rfl hs.names (fun r => ?_) rfl (fun _ => rfl) hs.left
    Array.size_modify (fun t => ?_) rfl, hs.referenced⟩
  · have hvars : (h.adjust (· - 1) (.scanner s)).variableReferences = h.variableReferences := rfl
    rw [lower_count hs.toConsistent, owners_cons, owners, owners, hvars]
    cases r with
    | list l => rfl
    | context c =>
      have hst := staked_last hv h1 c
      simp only [Reference.context.injEq]
      omega
    | scanner t => rfl
  · exact lower_scanner_context s t

theorem giveScanner_sound {s : ScannerId} (hs : Sound (.scanner s ::ₘ F) h) :
    Sound F (h.giveScanner s) := by
  have hcount : (h.scanner s).clones ≠ 0 := count_of_owned hs.toConsistent
  rw [giveScanner_eq]
  by_cases h1 : (h.scanner s).clones = 1
  · rw [if_pos (Nat.le_of_eq h1)]
    exact giveContext_sound (shutScanner_sound (lower_scanner_last hs h1) s)
  · rw [if_neg (by omega)]
    exact ⟨lower_consistent hs.toConsistent (.inl h1), hs.referenced⟩

theorem giveBack_sound {r : Reference} (hs : Sound (r ::ₘ F) h) : Sound F (h.giveBack r) := by
  cases r with
  | list l => exact giveList_sound hs false
  | context c => exact giveContext_sound hs
  | scanner s => exact giveScanner_sound hs

/-! ## Variables -/

/-- A variable is set or removed. Owners exchange references with it. -/
theorem rebind_sound (hs : Sound F h) {bindings : List (String × Item)}
    (hnames : (bindings.map Prod.fst).Nodup)
    (hrefs : F' + referencesOf bindings = F + h.variableReferences) :
    Sound F' { h with bindings } := by
  refine ⟨hs.toConsistent.quiet (fun c => ⟨Context.Alike.refl _, fun _ ht =>
    ⟨ht.valid, ht.context, ht.isOpen⟩, rfl, rfl⟩) rfl hnames (fun r => ?_) rfl (fun _ => rfl) hs.left rfl
    (fun _ => rfl) rfl, hs.referenced⟩
  have howned := hs.counts r
  rw [owners, ← hrefs] at howned
  cases r <;> exact howned

theorem names_filter {name : String} (hn : (h.bindings.map Prod.fst).Nodup) :
    ((h.bindings.filter fun v => v.1 != name).map Prod.fst).Nodup :=
  hn.sublist (List.filter_sublist.map _)

theorem unbind_sound (hs : Sound F h) (name : String) :
    Sound (h.boundTo name + F) (h.unbind name) := by
  refine rebind_sound hs (names_filter hs.names) ?_
  rw [variableReferences, referencesOf_filter name hs.names, boundTo]
  ac_rfl

theorem bind_sound (name : String) {item : Item} (hs : Sound (item.references + F) h) :
    Sound (h.boundTo name + F) (h.bind name item) := by
  refine rebind_sound hs ?_ ?_
  · rw [List.map_cons, List.nodup_cons]
    refine ⟨fun hm => ?_, names_filter hs.names⟩
    obtain ⟨v, hv, he⟩ := List.mem_map.1 hm
    have hne := (List.mem_filter.1 hv).2
    rw [he] at hne
    simp at hne
  · rw [variableReferences, referencesOf_filter name hs.names, boundTo, referencesOf,
      List.flatMap_cons, ← Multiset.coe_add, ← referencesOf]
    ac_rfl

end Holdings

end ProxySession
