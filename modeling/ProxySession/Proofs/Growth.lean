import ProxySession.Proofs.GiveBack

/-!
# Growth keeps the invariant

A context keeps what is added to it: the resolution of an object, a converted list, a scanner
session. What is new has one owner, the running operation that made it.
-/

namespace ProxySession

namespace Holdings

variable {F : Multiset Reference} {h : Holdings} {c : ContextId}

/-- What an operation owns is there. -/
theorem valid_of_owned (hs : Sound F h) (hc : .context c ∈ F) : c.index < h.contexts.size := by
  refine valid_of_count (r := .context c) ?_
  have hpos := Multiset.one_le_count_iff_mem.2 hc
  rw [hs.counts, owners, Multiset.count_add]
  omega

theorem count_of_variable (hs : Sound F h) {r : Reference} (hr : r ∈ h.variableReferences) :
    h.count r ≠ 0 := by
  have hpos : 1 ≤ (h.variableReferences : Multiset Reference).count r :=
    Multiset.one_le_count_iff_mem.2 hr
  rw [hs.counts, owners, Multiset.count_add]
  omega

theorem pending_sound (hs : Sound F h) (c : ContextId) (failures : Context → List HostFailure)
    (tag : Context → Nat) : Sound F (h.modifyContext c fun cx =>
      { cx with pending := failures cx, lastTag := tag cx }) := by
  have hu := modifyContext_undisturbed (h := h) (c := c)
    (f := fun cx => { cx with pending := failures cx, lastTag := tag cx })
    fun cx => ⟨rfl, fun k => by cases k <;> rfl, rfl⟩
  have hrefs (d : ContextId) : ((h.modifyContext c fun cx =>
      { cx with pending := failures cx, lastTag := tag cx }).context d).references =
        (h.context d).references := by
    rw [context_modifyContext]
    split <;> rfl
  refine hs.around c Array.size_modify rfl (fun r => ?_) hs.lists hs.left hs.scanners hs.resolutions
    (fun d _ => hu d) (by rw [(hu c).alike.custodian]) (fun d => by rw [hrefs]; exact id)
    (fun hv ho => (hu c).alive (hs.alive c hv ho)) fun ho => (hu c).ended (hs.ended c ho)
  have howned := hs.counts r
  cases r with
  | context d => rw [count, hrefs]; exact howned
  | _ => exact howned

/-! ## Resolutions -/

theorem resolutionsOf_record (ρ : Resolution) (h : Holdings) (d : ContextId) :
    (h.record ρ).resolutionsOf d =
      h.resolutionsOf d ++ if ρ.proxy.context = d then [ρ] else [] := by
  simp only [resolutionsOf, record, Array.toList_push, List.filter_append]
  congr 1
  by_cases hd : ρ.proxy.context = d <;> simp [hd]

theorem mem_record {ρ σ : Resolution} (hσ : σ ∈ (h.record ρ).resolutions) :
    σ ∈ h.resolutions ∨ σ = ρ :=
  Array.mem_push.1 hσ

/-- A context that holds an entry is there and open. -/
theorem open_of_entry (hs : Sound F h) {k : ProxyKind} {key : Int64} {handle : HandleId}
    (he : ((h.context c).identities k).get? key = some handle) :
    c.index < h.contexts.size ∧ (h.context c).custodian.closed = false := by
  constructor
  · by_contra hn
    have hd : h.context c = default := getD_of_size_le (Nat.le_of_not_lt hn)
    rw [hd] at he
    cases k <;> cases he
  · by_contra hn
    have hentries := (hs.ended c (by simpa using hn)).entries k
    rw [IdentityMap.get?, hentries] at he
    cases he

theorem hit_sound (hs : Sound F h) {k : ProxyKind} {key : Int64} {handle : HandleId}
    (r : ObjectRef) (he : ((h.context c).identities k).get? key = some handle) :
    Sound F (h.record ⟨k, r, key, ⟨c, key, handle⟩⟩) := by
  obtain ⟨hv, ho⟩ := open_of_entry hs he
  refine hs.around c rfl rfl (fun r => ?counts) hs.lists hs.left hs.scanners
    (fun ρ hρ => ?resolutions) (fun d hd => ?others) rfl (fun _ => id) (fun _ _ => ?alive) fun hc => ?ended
  case counts =>
    have howned := hs.counts r
    cases r <;> exact howned
  case resolutions =>
    rcases mem_record hρ with hρ | rfl
    · exact hs.resolutions ρ hρ
    · exact hv
  case others =>
    refine ⟨Context.Alike.refl _, fun s hs => ⟨hs.valid, hs.context, hs.isOpen⟩, rfl, ?_⟩
    rw [resolutionsOf_record, if_neg hd, List.append_nil]
  case alive =>
    have ha := hs.alive c hv ho
    refine ⟨fun s hs => ha.tracked s ⟨hs.valid, hs.context, hs.isOpen⟩, ?_⟩
    rw [resolutionsOf_record, if_pos rfl]
    exact ha.keeps.hit r he
  case ended =>
    rw [ho] at hc
    cases hc

theorem enroll_context (k : ProxyKind) (r : ObjectRef) (key : Int64)
    (hv : c.index < h.contexts.size) (d : ContextId) : (h.enroll c k r key).context d =
      if c = d then (h.context c).enrolling k r key else h.context d := by
  have hr : (h.enroll c k r key).context d =
      ((h.retain c (.object r)).addEntry c k key (h.nextHandle c)).context d := rfl
  rw [hr, addEntry, context_modifyContext, retain, context_modifyContext]
  have hsize : (h.modifyContext c fun cx => { cx with custodian := { cx.custodian with
      slots := cx.custodian.slots.push (some (.object r)) } }).contexts.size =
        h.contexts.size := Array.size_modify
  by_cases hd : c = d
  · subst hd
    rw [hsize, if_pos ⟨rfl, hv⟩, if_pos ⟨rfl, hv⟩, if_pos rfl, Context.enrolling]
    cases k <;> rfl
  · rw [if_neg hd, if_neg fun hc => hd hc.1, if_neg fun hc => hd hc.1]

theorem enroll_sound (hs : Sound F h) {k : ProxyKind} {key : Int64} (r : ObjectRef)
    (hc : .context c ∈ F) (ho : (h.context c).custodian.closed = false)
    (hn : ((h.context c).identities k).get? key = none) : Sound F (h.enroll c k r key) := by
  have hv := valid_of_owned hs hc
  have hctx := enroll_context k r key hv
  have hsize : (h.enroll c k r key).contexts.size = h.contexts.size := by
    simp [enroll, record, addEntry, retain, modifyContext]
  have hrefs (d : ContextId) :
      ((h.enroll c k r key).context d).references = (h.context d).references := by
    rw [hctx]
    split
    · next hd => rw [← hd, Context.enrolling, Context.setIdentities_references]
    · rfl
  refine hs.around c hsize rfl (fun r' => ?counts) hs.lists hs.left hs.scanners (fun ρ hρ => ?resolutions)
    (fun d hd => ?others) ?closed (fun d => by rw [hrefs]; exact id) (fun _ _ => ?alive) fun hclosed => ?ended
  case counts =>
    have howned := hs.counts r'
    cases r' with
    | context d => rw [count, hrefs]; exact howned
    | _ => exact howned
  case resolutions =>
    rcases mem_record hρ with hρ | rfl
    · exact hs.resolutions ρ hρ
    · exact hv
  case others =>
    refine ⟨?_, fun s hs => ⟨hs.valid, hs.context, hs.isOpen⟩, rfl, ?_⟩
    · rw [hctx, if_neg hd]
      exact Context.Alike.refl _
    · rw [enroll, resolutionsOf_record, if_neg hd, List.append_nil]
      rfl
  case closed => rw [hctx, if_pos rfl, Context.enrolling, Context.setIdentities_custodian]
  case alive =>
    have ha := hs.alive c hv ho
    refine ⟨fun s hs => ?_, ?_⟩
    · rw [hctx, if_pos rfl, Context.enrolling, Context.setIdentities_custodian]
      exact ha.tracked s ⟨hs.valid, hs.context, hs.isOpen⟩
    · have hk := ha.keeps.enroll c r hn
      rw [hctx, if_pos rfl, enroll, resolutionsOf_record, if_pos rfl]
      exact hk
  case ended =>
    rw [ho] at hclosed
    cases hclosed

/-! ## Lists -/

/-- What is new has one owner more than what is not there, and all else has the owners it had. -/
theorem owners_new (hs : Sound F h) (h' : Holdings) (hbindings : h'.bindings = h.bindings)
    {r : Reference} (hstaked : h'.staked r = h.staked r) (r₀ : Reference) :
    h'.owners (r₀ ::ₘ F) r = h.count r + if r = r₀ then 1 else 0 := by
  rw [owners_cons, owners, variableReferences, hbindings, hstaked, hs.counts r]
  rfl

theorem convert_context (v : Value) (length : Nat) (hv : c.index < h.contexts.size)
    (d : ContextId) : (h.convert c v length).context d = if c = d then
      { h.context c with custodian := { (h.context c).custodian with
        slots := (h.context c).custodian.slots.push (some v) } } else h.context d := by
  have hr : (h.convert c v length).context d = (h.retain c v).context d := rfl
  rw [hr, retain, context_modifyContext]
  by_cases hd : c = d
  · subst hd
    rw [if_pos ⟨rfl, hv⟩, if_pos rfl]
  · rw [if_neg hd, if_neg fun hc => hd hc.1]

theorem convert_list (c : ContextId) (v : Value) (length : Nat) (h : Holdings) (l : ListId) :
    (h.convert c v length).list l = if l.index = h.lists.size then
      { context := c, handle := h.nextHandle c, length, clones := 1, origin := v }
        else h.list l :=
  getD_push h.lists _ l.index

theorem convert_count (v : Value) (length : Nat) (hv : c.index < h.contexts.size) (r : Reference) :
    (h.convert c v length).count r =
      h.count r + if r = .list ⟨h.lists.size⟩ then 1 else 0 := by
  cases r with
  | list l =>
    obtain ⟨i⟩ := l
    simp only [Reference.list.injEq, ListId.mk.injEq]
    exact count_push (f := NodeList.clones) rfl h.lists i
  | context d =>
    rw [if_neg (by simp), count, convert_context v length hv]
    split
    · next hd =>
      rw [← hd]
      rfl
    · rfl
  | scanner s =>
    rw [if_neg (by simp)]
    rfl

theorem convert_shares (c : ContextId) (v : Value) (length : Nat) (h : Holdings) (d : ContextId) :
    (h.convert c v length).shares d =
      (if c = d then {((h.nextHandle c).index.toNat, v)} else 0) + h.shares d := by
  have ht : (h.convert c v length).shares d = h.shares d +
      NodeList.share d
        { context := c, handle := h.nextHandle c, length, clones := 1, origin := v } :=
    total_push _ _ _
  rw [ht, add_comm]
  simp [NodeList.share]

theorem convert_sound (hs : Sound F h) (v : Value) (length : Nat) (hc : .context c ∈ F)
    (ho : (h.context c).custodian.closed = false) :
    Sound (.list ⟨h.lists.size⟩ ::ₘ F) (h.convert c v length) := by
  have hv := valid_of_owned hs hc
  have hctx := convert_context v length hv
  have hrefs (d : ContextId) :
      ((h.convert c v length).context d).references = (h.context d).references := by
    rw [hctx]
    split
    · next hd => rw [hd]
    · rfl
  have hsize : (h.convert c v length).contexts.size = h.contexts.size := Array.size_modify
  refine hs.around c hsize rfl (fun r => ?counts) (fun l hl => ?lists) (fun l hl => ?left) hs.scanners
    hs.resolutions (fun d hd => ?others) ?closed (fun d => by rw [hrefs]; exact id) (fun _ _ => ?alive)
    fun hclosed => ?ended
  case counts => rw [owners_new hs (h.convert c v length) rfl (by cases r <;> rfl), convert_count v length hv]
  case lists =>
    rw [convert_list]
    split
    · exact hv
    · next hne =>
      have hsz : (h.convert c v length).lists.size = h.lists.size + 1 := Array.size_push _
      exact hs.lists l (by omega)
  case left =>
    rw [convert_list] at hl ⊢
    split at hl
    · cases hl
    · next hne =>
      rw [if_neg hne]
      exact hs.left l hl
  case others =>
    refine ⟨?_, fun s hs => ⟨hs.valid, hs.context, hs.isOpen⟩, ?_, rfl⟩
    · rw [hctx, if_neg hd]
      exact Context.Alike.refl _
    · rw [convert_shares, if_neg hd, zero_add]
  case closed => rw [hctx, if_pos rfl]
  case alive =>
    have ha := hs.alive c hv ho
    refine ⟨fun s hs => ?_, ?_⟩
    · rw [hctx, if_pos rfl]
      exact ha.tracked s ⟨hs.valid, hs.context, hs.isOpen⟩
    · rw [hctx, if_pos rfl, convert_shares, if_pos rfl, Multiset.singleton_add]
      exact ha.keeps.convert v
  case ended =>
    rw [ho] at hclosed
    cases hclosed

/-! ## Scanner sessions -/

/-- The resources of a context that begins to track a session. -/
def tracked (h : Holdings) (rs : List ScannerId) : List ScannerId :=
  rs.filter (fun s => !(h.scanner s).custodian.closed) ++ [⟨h.scanners.size⟩]

theorem openSession_context (text : String) (r : ObjectRef) (hv : c.index < h.contexts.size)
    (d : ContextId) : (h.openSession c text r).context d = if c = d then
      { h.context c with
        custodian := { (h.context c).custodian with
          resources := h.tracked (h.context c).custodian.resources }
        references := (h.context c).references + 1 } else h.context d := by
  have hsize : ({ h with scanners := h.scanners.push (freshSession c text r) }.modifyContext c
      fun cx => { cx with custodian := { cx.custodian with
        resources := h.tracked cx.custodian.resources } }).contexts.size = h.contexts.size :=
    Array.size_modify
  rw [openSession, take, context_modifyContext, context_modifyContext]
  by_cases hd : c = d
  · subst hd
    rw [if_pos ⟨rfl, hsize.symm ▸ hv⟩, if_pos ⟨rfl, hv⟩, if_pos rfl]
    rfl
  · rw [if_neg hd, if_neg fun hc => hd hc.1, if_neg fun hc => hd hc.1]
    rfl

theorem openSession_scanner (c : ContextId) (text : String) (r : ObjectRef) (h : Holdings)
    (s : ScannerId) : (h.openSession c text r).scanner s =
      if s.index = h.scanners.size then freshSession c text r else h.scanner s :=
  getD_push h.scanners _ s.index

theorem openSession_staked (c : ContextId) (text : String) (r : ObjectRef) (h : Holdings)
    (r' : Reference) : (h.openSession c text r).staked r' =
      h.staked r' + if r' = .context c then 1 else 0 := by
  cases r' with
  | context d =>
    have ht : (h.openSession c text r).staked (.context d) = h.staked (.context d) +
        (freshSession c text r).stake d := total_push _ _ _
    rw [ht]
    simp [ScannerSession.stake, freshSession, eq_comm]
  | _ =>
    rw [if_neg (by simp)]
    rfl

theorem openSession_count (text : String) (r : ObjectRef) (hv : c.index < h.contexts.size)
    (r' : Reference) : (h.openSession c text r).count r' = h.count r' +
      (if r' = .scanner ⟨h.scanners.size⟩ then 1 else 0) + if r' = .context c then 1 else 0 := by
  cases r' with
  | list l =>
    rw [if_neg (by simp), if_neg (by simp)]
    rfl
  | context d =>
    rw [if_neg (by simp), count, openSession_context text r hv]
    by_cases hd : c = d
    · subst hd
      rw [if_pos rfl, if_pos rfl]
      rfl
    · rw [if_neg hd, if_neg fun he => hd (Reference.context.inj he).symm]
      rfl
  | scanner s =>
    obtain ⟨i⟩ := s
    rw [if_neg (by simp : Reference.scanner ⟨i⟩ ≠ .context c)]
    simp only [Reference.scanner.injEq, ScannerId.mk.injEq]
    exact count_push (f := ScannerSession.clones) rfl h.scanners i

/-- The new session is open on its context, and all others were open before. -/
theorem openOn_of_openSession {text : String} {r : ObjectRef} {s : ScannerId} {d : ContextId}
    (ht : (h.openSession c text r).OpenOn s d) :
    (s = ⟨h.scanners.size⟩ ∧ c = d) ∨ h.OpenOn s d := by
  obtain ⟨hvalid, hcontext, hopen⟩ := ht
  rw [openSession_scanner] at hcontext hopen
  by_cases hs : s.index = h.scanners.size
  · rw [if_pos hs] at hcontext
    obtain ⟨i⟩ := s
    exact .inl ⟨congrArg ScannerId.mk hs, hcontext⟩
  · rw [if_neg hs] at hcontext hopen
    have hsize : (h.openSession c text r).scanners.size = h.scanners.size + 1 :=
      Array.size_push _
    exact .inr ⟨by omega, hcontext, hopen⟩

theorem openSession_undisturbed {d : ContextId} (text : String) (r : ObjectRef)
    (hv : c.index < h.contexts.size) (hd : c ≠ d) :
    Undisturbed h (h.openSession c text r) d where
  alike := by
    rw [openSession_context text r hv, if_neg hd]
    exact Context.Alike.refl _
  sessions _ ht := (openOn_of_openSession ht).resolve_left fun hn => hd hn.2
  shares := rfl
  resolutions := rfl

theorem openSession_alive (text : String) (r : ObjectRef) (hv : c.index < h.contexts.size)
    (ha : h.Alive c) : (h.openSession c text r).Alive c where
  tracked s ht := by
    rw [openSession_context text r hv, if_pos rfl]
    refine List.mem_append.2 ?_
    rcases openOn_of_openSession ht with ⟨rfl, _⟩ | hold
    · exact .inr (List.mem_singleton_self _)
    · exact .inl (List.mem_filter.2 ⟨ha.tracked s hold, by simp [hold.isOpen]⟩)
  keeps := by
    rw [openSession_context text r hv, if_pos rfl]
    exact ha.keeps.congr rfl (fun k => by cases k <;> rfl) rfl

theorem openSession_sound (hs : Sound F h) (text : String) (r : ObjectRef) (hc : .context c ∈ F)
    (ho : (h.context c).custodian.closed = false) :
    Sound (.scanner ⟨h.scanners.size⟩ ::ₘ F) (h.openSession c text r) := by
  have hv := valid_of_owned hs hc
  have hctx := openSession_context text r hv
  have hsize : (h.openSession c text r).contexts.size = h.contexts.size := by
    simp [openSession, take, modifyContext]
  refine hs.around c hsize rfl (fun r' => ?counts) hs.lists hs.left (fun s hs' => ?scanners) hs.resolutions
    (fun d hd => openSession_undisturbed text r hv hd) ?closed (fun d hd => ?references)
    (fun hv ho => openSession_alive text r hv (hs.alive c hv ho)) fun hclosed => ?ended
  case counts =>
    -- The session is a new owner of its context, besides the ones that there were.
    have howned := hs.counts r'
    rw [owners] at howned
    have hvars : (h.openSession c text r).variableReferences = h.variableReferences := rfl
    rw [owners_cons, owners, openSession_staked, hvars, openSession_count text r hv]
    omega
  case scanners =>
    rw [openSession_scanner]
    split
    · exact hv
    · next hne =>
      have hsz : (h.openSession c text r).scanners.size = h.scanners.size + 1 :=
        Array.size_push _
      exact hs.scanners s (by omega)
  case closed => rw [hctx, if_pos rfl]
  case references =>
    rw [hctx]
    split
    · exact Nat.succ_ne_zero _
    · exact hd
  case ended =>
    rw [ho] at hclosed
    cases hclosed

/-! ## Contexts -/

theorem openContext_context (cx : Context) (h : Holdings) (d : ContextId) :
    (h.openContext cx).context d = if d.index = h.contexts.size then cx else h.context d :=
  getD_push h.contexts cx d.index

theorem openContext_count {cx : Context} (hcx : cx.references = 1) (h : Holdings)
    (r : Reference) : (h.openContext cx).count r =
      h.count r + if r = .context ⟨h.contexts.size⟩ then 1 else 0 := by
  cases r with
  | context d =>
    obtain ⟨i⟩ := d
    simp only [Reference.context.injEq, ContextId.mk.injEq]
    exact count_push (f := Context.references) hcx h.contexts i
  | _ =>
    rw [if_neg (by simp)]
    rfl

/-- Nothing refers to a context that does not exist. -/
theorem shares_of_new (hc : Consistent F h) (hd : h.contexts.size ≤ c.index) : h.shares c = 0 := by
  refine total_eq_zero fun i cell hi => ?_
  have hlist : h.list ⟨i⟩ = h.lists.getD i cell := by
    simp [Holdings.list, Array.getD, hi]
  have hv := hc.lists ⟨i⟩ hi
  rw [← hlist, NodeList.share, if_neg]
  rintro ⟨rfl, _⟩
  omega

theorem resolutionsOf_new (hc : Consistent F h) (hd : h.contexts.size ≤ c.index) :
    h.resolutionsOf c = [] := by
  refine List.filter_eq_nil_iff.2 fun ρ hρ => ?_
  have hv := hc.resolutions ρ (Array.mem_toList_iff.1 hρ)
  simp only [decide_eq_true_eq]
  rintro rfl
  omega

theorem openContext_sound (hs : Sound F h) (p : Bootstrap.Parts) (token : Value)
    (rules : IdentityRules) : Sound (.context ⟨h.contexts.size⟩ ::ₘ F)
      (h.openContext (Bootstrap.newContext p token rules)) := by
  have hctx := openContext_context (Bootstrap.newContext p token rules) h
  have hsize : (h.openContext (Bootstrap.newContext p token rules)).contexts.size =
      h.contexts.size + 1 := Array.size_push _
  have hu (d : ContextId) (hd : d.index ≠ h.contexts.size) :
      Undisturbed h (h.openContext (Bootstrap.newContext p token rules)) d := by
    refine ⟨?_, fun s hs => ⟨hs.valid, hs.context, hs.isOpen⟩, rfl, rfl⟩
    rw [hctx, if_neg hd]
    exact Context.Alike.refl _
  refine ⟨⟨hs.names, fun r => ?counts, fun l hl => ?lists, hs.left, fun s hv => ?scanners,
    fun ρ hρ => ?resolutions, fun d hv ho => ?alive, fun d ho => ?ended⟩, fun d hv ho => ?referenced⟩
  case counts => rw [owners_new hs (h.openContext _) rfl (by cases r <;> rfl), openContext_count rfl]
  case lists =>
    rw [hsize]
    exact Nat.lt_succ_of_lt (hs.lists l hl)
  case scanners =>
    rw [hsize]
    exact Nat.lt_succ_of_lt (hs.scanners s hv)
  case resolutions =>
    rw [hsize]
    exact Nat.lt_succ_of_lt (hs.resolutions ρ hρ)
  case alive =>
    by_cases hd : d.index = h.contexts.size
    · refine ⟨fun s hs' => ?_, ?_⟩
      · have hlt := hs.scanners s hs'.valid
        have hcontext : (h.scanner s).context = d := hs'.context
        rw [hcontext] at hlt
        omega
      · have hshares := shares_of_new hs.toConsistent (Nat.le_of_eq hd.symm)
        have hresolutions := resolutionsOf_new hs.toConsistent (Nat.le_of_eq hd.symm)
        change Context.Keeps _ (h.shares d) (h.resolutionsOf d)
        rw [hctx, if_pos hd, hshares, hresolutions]
        exact Context.Keeps.fresh p token rules
    · rw [hctx, if_neg hd] at ho
      exact (hu d hd).alive (hs.alive d (by omega) ho)
  case ended =>
    by_cases hd : d.index = h.contexts.size
    · rw [hctx, if_pos hd] at ho
      cases ho
    · rw [hctx, if_neg hd] at ho
      exact (hu d hd).ended (hs.ended d ho)
  case referenced =>
    by_cases hd : d.index = h.contexts.size
    · rw [hctx, if_pos hd]
      exact Nat.one_ne_zero
    · rw [hctx, if_neg hd] at ho ⊢
      exact hs.referenced d (by omega) ho

end Holdings

/-! ## Every change -/

/-- Each change of what is held keeps the invariant. -/
theorem Change.sound {F F' : Multiset Reference} {h h' : Holdings} (hc : Change F h F' h')
    (hs : Holdings.Sound F h) : Holdings.Sound F' h' := by
  cases hc with
  | pending c failures tag => exact Holdings.pending_sound hs c failures tag
  | hold hr => exact Holdings.take_sound hs (Holdings.count_of_variable hs hr)
  | enter hr => exact Holdings.take_sound hs hr
  | drop r => exact Holdings.giveBack_sound hs
  | free owned h1 ho hc => exact Holdings.giveListOwning_sound hs
  | bind name item => exact Holdings.bind_sound name hs
  | unbind name => exact Holdings.unbind_sound hs name
  | hit r he => exact Holdings.hit_sound hs r he
  | miss r hc ho hn => exact Holdings.enroll_sound hs r hc ho hn
  | convert v length hc ho => exact Holdings.convert_sound hs v length hc ho
  | openSession text r hc ho => exact Holdings.openSession_sound hs text r hc ho
  | openContext p token rules => exact Holdings.openContext_sound hs p token rules
  | shutContext c => exact Holdings.shutContext_sound hs c
  | shutScanner s => exact Holdings.shutScanner_sound hs s

end ProxySession
