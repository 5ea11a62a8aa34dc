import ProxySession.Proofs.ContextReferences

/-!
# Scanner sessions in order

A scanner session that is open is alive and holds its scanner object, and a closed one holds nothing. A
context tracks sessions of its own, none of them twice. Whatever opens no session lets the ones that are
there go on.
-/

namespace ProxySession

/-- A session that is alive and holds its scanner object in its one slot while it is open, and that holds
nothing once it is closed. -/
structure ScannerSession.InOrder (session : ScannerSession) : Prop where
  name : session.custodian.name = "scanner"
  handle : session.handle = ⟨0⟩
  full : session.custodian.closed = false →
    session.clones ≠ 0 ∧ ∃ r, session.custodian.slots = #[some (.object r)]
  empty : session.custodian.closed = true → session.custodian.slots = #[]

namespace ScannerSession.InOrder

variable {session : ScannerSession}

theorem fresh (c : ContextId) (text : String) (r : ObjectRef) :
    (Holdings.freshSession c text r).InOrder :=
  ⟨rfl, rfl, fun _ => ⟨Nat.one_ne_zero, r, rfl⟩, fun hc => by cases hc⟩

/-- A session may close whatever becomes of its clones. -/
theorem shut (ho : session.InOrder) (n : Nat) :
    (ScannerSession.shut { session with clones := n }).InOrder := by
  cases hc : session.custodian.closed with
  | true =>
    have hs : ScannerSession.shut { session with clones := n } = { session with clones := n } :=
      if_pos hc
    rw [hs]
    exact ⟨ho.name, ho.handle, fun hf => absurd (hf.symm.trans hc) Bool.false_ne_true, ho.empty⟩
  | false =>
    have hs : ScannerSession.shut { session with clones := n } =
        { session with clones := n, custodian := session.custodian.shut } := if_neg (by simp [hc])
    rw [hs]
    exact ⟨ho.name, ho.handle, fun hf => absurd hf (by simp [Custodian.shut]), fun _ => rfl⟩

end ScannerSession.InOrder

namespace Holdings

/-- The sessions that are there go on, and contexts may give up tracking them. -/
structure GoesOn (h h' : Holdings) : Prop where
  size : h'.scanners.size = h.scanners.size
  context : ∀ s, (h'.scanner s).context = (h.scanner s).context
  closed : ∀ s, (h.scanner s).custodian.closed = true → (h'.scanner s).custodian.closed = true
  inOrder : ∀ s, s.index < h.scanners.size → (h.scanner s).InOrder → (h'.scanner s).InOrder
  resources : ∀ c, (h'.context c).custodian.resources.Sublist (h.context c).custodian.resources

theorem lower_shut_scanner (s t : ScannerId) (h : Holdings) :
    ((h.adjust (· - 1) (.scanner s)).shutScanner s).scanner t =
      if s = t ∧ t.index < h.scanners.size then
        ScannerSession.shut { h.scanner t with clones := (h.scanner t).clones - 1 }
      else h.scanner t := by
  have hsize : (h.adjust (· - 1) (.scanner s)).scanners.size = h.scanners.size :=
    Array.size_modify
  rw [shutScanner_scanner, hsize, adjust, scanner_modifyScanner]
  split <;> rfl

namespace GoesOn

variable {F : Multiset Reference} {h h' h'' : Holdings}

theorem refl (h : Holdings) : h.GoesOn h :=
  ⟨rfl, fun _ => rfl, fun _ => id, fun _ _ => id, fun _ => .refl _⟩

theorem trans (h₁ : h.GoesOn h') (h₂ : h'.GoesOn h'') : h.GoesOn h'' where
  size := h₂.size.trans h₁.size
  context s := (h₂.context s).trans (h₁.context s)
  closed s hs := h₂.closed s (h₁.closed s hs)
  inOrder s hv hs := h₂.inOrder s (h₁.size ▸ hv) (h₁.inOrder s hv hs)
  resources c := (h₂.resources c).trans (h₁.resources c)

/-! ## Sessions alone -/

theorem of_scanner (hsize : h'.scanners.size = h.scanners.size) (hcontexts : h'.contexts = h.contexts)
    {s : ScannerId} {f : ScannerSession → ScannerSession}
    (hx : ∀ t, h'.scanner t =
      if s = t ∧ t.index < h.scanners.size then f (h.scanner t) else h.scanner t)
    (hcontext : ∀ session, (f session).context = session.context)
    (hclosed : ∀ session, session.custodian.closed = true → (f session).custodian.closed = true)
    (hf : (h.scanner s).InOrder → (f (h.scanner s)).InOrder) : h.GoesOn h' where
  size := hsize
  context t := by
    rw [hx]
    split
    · exact hcontext _
    · rfl
  closed t ht := by
    rw [hx]
    split
    · exact hclosed _ ht
    · exact ht
  inOrder t _ ht := by
    rw [hx]
    split
    · next he =>
      obtain ⟨rfl, _⟩ := he
      exact hf ht
    · exact ht
  resources c := by
    rw [Holdings.context, hcontexts]
    exact .refl _

theorem shutScanner (s : ScannerId) (h : Holdings) : h.GoesOn (h.shutScanner s) :=
  of_scanner (shutScanner_size s h) rfl (fun t => shutScanner_scanner s t h)
    ScannerSession.shut_context (fun session _ => session.shut_closed) fun hs => hs.shut _

theorem shutScanners (ss : List ScannerId) (h : Holdings) : h.GoesOn (h.shutScanners ss) := by
  induction ss generalizing h with
  | nil => exact refl h
  | cons s rest ih => exact (shutScanner s h).trans (ih (h.shutScanner s))

/-- The last clone of a session closes it. -/
theorem lower_shut (s : ScannerId) (h : Holdings) :
    h.GoesOn ((h.adjust (· - 1) (.scanner s)).shutScanner s) :=
  of_scanner ((shutScanner_size s _).trans Array.size_modify) rfl
    (f := fun session => ScannerSession.shut { session with clones := session.clones - 1 })
    (fun t => lower_shut_scanner s t h) (fun _ => ScannerSession.shut_context _)
    (fun _ _ => ScannerSession.shut_closed _) fun hs => hs.shut _

/-- The clones of a session may change as long as one is left. -/
theorem adjust_scanner (s : ScannerId) (h : Holdings) {f : Nat → Nat}
    (hf : (h.scanner s).clones ≠ 0 → f (h.scanner s).clones ≠ 0) :
    h.GoesOn (h.adjust f (.scanner s)) :=
  of_scanner Array.size_modify rfl (f := fun session => { session with clones := f session.clones })
    (fun t => scanner_modifyScanner s t _ h) (fun _ => rfl) (fun _ => id) fun hs =>
      ⟨hs.name, hs.handle, fun ho => ⟨hf (hs.full ho).1, (hs.full ho).2⟩, hs.empty⟩

/-! ## Contexts alone -/

theorem of_resources (hscanners : h'.scanners = h.scanners)
    (hresources : ∀ c,
      (h'.context c).custodian.resources.Sublist (h.context c).custodian.resources) :
    h.GoesOn h' := by
  have hx (s : ScannerId) : h'.scanner s = h.scanner s := by
    rw [scanner, hscanners, scanner]
  refine ⟨congrArg Array.size hscanners, fun s => ?_, fun s hs => ?_, fun s _ hs => ?_, hresources⟩
  · rw [hx]
  · rwa [hx]
  · rwa [hx]

theorem of_same (hscanners : h'.scanners = h.scanners) (hcontexts : h'.contexts = h.contexts) :
    h.GoesOn h' :=
  of_resources hscanners fun c => by
    rw [Holdings.context, hcontexts]
    exact .refl _

theorem modifyContext (c : ContextId) (h : Holdings) {f : Context → Context}
    (hf : ∀ cx : Context, (f cx).custodian.resources = cx.custodian.resources) :
    h.GoesOn (h.modifyContext c f) :=
  of_resources rfl fun d => by
    rw [same_modifyContext (fun cx => cx.custodian.resources) c h hf d]

theorem shutContext (c : ContextId) (h : Holdings) : h.GoesOn (h.shutContext c) := by
  cases hc : (h.context c).custodian.closed with
  | true =>
    rw [shutContext_of_closed hc]
    exact refl h
  | false =>
    rw [shutContext_of_open hc]
    refine (shutScanners _ h).trans (of_resources rfl fun d => ?_)
    rw [context_modifyContext]
    split
    · exact List.nil_sublist _
    · exact .refl _

/-! ## Taking and giving back -/

theorem giveContext (c : ContextId) (h : Holdings) : h.GoesOn (h.giveContext c) := by
  have hlower : h.GoesOn (h.adjust (· - 1) (.context c)) := modifyContext c h fun _ => rfl
  rw [giveContext_eq]
  split
  · exact hlower.trans (shutContext c _)
  · exact hlower

theorem giveScanner (s : ScannerId) (h : Holdings) : h.GoesOn (h.giveScanner s) := by
  rw [giveScanner_eq]
  split
  · exact (lower_shut s h).trans (giveContext _ _)
  · next h1 => exact adjust_scanner s h fun _ => by omega

theorem releaseList (l : ListId) (h : Holdings) : h.GoesOn (h.releaseList false l) := by
  rcases releaseList_cases l h with ⟨he, _⟩ | ⟨custodian, _, hok, he⟩
  · rw [he]
    exact refl h
  · rw [he]
    refine of_resources rfl fun d => ?_
    rw [context_modifyContext]
    split
    · next hd =>
      rw [← hd.1]
      change custodian.resources.Sublist _
      rw [Context.Keeps.release_cases hok]
    · exact .refl _

theorem giveList (l : ListId) (h : Holdings) : h.GoesOn (h.giveList false l) := by
  have hlower : h.GoesOn (h.adjust (· - 1) (.list l)) := of_same rfl rfl
  rw [giveList_eq]
  split
  · exact hlower.trans (releaseList l _)
  · exact hlower

theorem giveBack (r : Reference) (h : Holdings) : h.GoesOn (h.giveBack r) := by
  cases r with
  | list l => exact giveList l h
  | context c => exact giveContext c h
  | scanner s => exact giveScanner s h

theorem take (r : Reference) (h : Holdings) : h.GoesOn (h.take r) := by
  cases r with
  | list l => exact of_same rfl rfl
  | context c => exact modifyContext c h fun _ => rfl
  | scanner s => exact adjust_scanner s h fun _ => Nat.succ_ne_zero _

/-! ## Growth -/

theorem enroll (c : ContextId) (k : ProxyKind) (r : ObjectRef) (key : Int64) (h : Holdings) :
    h.GoesOn (h.enroll c k r key) := by
  have hretain : h.GoesOn (h.retain c (.object r)) := modifyContext c h fun _ => rfl
  have hentry : (h.retain c (.object r)).GoesOn
      ((h.retain c (.object r)).addEntry c k key (h.nextHandle c)) :=
    modifyContext c _ fun cx => by cases k <;> rfl
  exact (hretain.trans hentry).trans (of_same rfl rfl)

theorem openContext {cx : Context} (hcx : cx.custodian.resources = []) (h : Holdings) :
    h.GoesOn (h.openContext cx) :=
  of_resources rfl fun c => by
    rw [openContext_context]
    split
    · rw [hcx]
      exact List.nil_sublist _
    · exact .refl _

end GoesOn

/-! ## Order -/

/-- All sessions are in order, and each context tracks sessions of its own, none of them twice. -/
structure Orderly (h : Holdings) : Prop where
  sessions : ∀ s, s.index < h.scanners.size → (h.scanner s).InOrder
  once : ∀ c, (h.context c).custodian.resources.Nodup
  own : ∀ c, ∀ s ∈ (h.context c).custodian.resources,
    s.index < h.scanners.size ∧ (h.scanner s).context = c

variable {F : Multiset Reference} {h h' : Holdings}

theorem Orderly.goOn (ho : h.Orderly) (hg : h.GoesOn h') : h'.Orderly where
  sessions s hs := hg.inOrder s (hg.size ▸ hs) (ho.sessions s (hg.size ▸ hs))
  once c := (hg.resources c).nodup (ho.once c)
  own c s hs := by
    rw [hg.size, hg.context]
    exact ho.own c s ((hg.resources c).subset hs)

theorem empty_orderly : Holdings.empty.Orderly where
  sessions _ hs := absurd hs (Nat.not_lt_zero _)
  once _ := List.nodup_nil
  own _ _ hs := absurd hs List.not_mem_nil

theorem openSession_old {s : ScannerId} (hs : s.index < h.scanners.size) (c : ContextId)
    (text : String) (r : ObjectRef) : (h.openSession c text r).scanner s = h.scanner s := by
  rw [openSession_scanner, if_neg (Nat.ne_of_lt hs)]

theorem openSession_size (c : ContextId) (text : String) (r : ObjectRef) (h : Holdings) :
    (h.openSession c text r).scanners.size = h.scanners.size + 1 :=
  Array.size_push _

/-- Opening a session drops closed ones from those that its context tracks, and adds the new one. -/
theorem mem_openSession {c d : ContextId} (hv : c.index < h.contexts.size) {text : String}
    {r : ObjectRef} {s : ScannerId} :
    s ∈ ((h.openSession c text r).context d).custodian.resources ↔
      s ∈ (h.context d).custodian.resources ∧ (c = d → (h.scanner s).custodian.closed = false) ∨
        c = d ∧ s = ⟨h.scanners.size⟩ := by
  rw [openSession_context text r hv]
  split
  · next hd =>
    subst hd
    simp [tracked, List.mem_filter]
  · next hd => simp [hd]

theorem Orderly.openSession (ho : h.Orderly) {c : ContextId} (hv : c.index < h.contexts.size)
    (text : String) (r : ObjectRef) : (h.openSession c text r).Orderly where
  sessions s hs := by
    rw [openSession_size] at hs
    rw [openSession_scanner]
    split
    · exact .fresh c text r
    · exact ho.sessions s (by omega)
  once d := by
    rw [openSession_context text r hv]
    split
    · refine List.nodup_append.2 ⟨(ho.once c).filter _, List.nodup_singleton _, ?_⟩
      rintro s hs t ht rfl
      have hlt := (ho.own c s (List.mem_filter.1 hs).1).1
      rw [List.mem_singleton.1 ht] at hlt
      exact Nat.lt_irrefl _ hlt
    · exact ho.once d
  own d s hs := by
    rw [openSession_size]
    rcases (mem_openSession hv).1 hs with ⟨hs, _⟩ | ⟨rfl, rfl⟩
    · obtain ⟨hlt, hd⟩ := ho.own d s hs
      rw [openSession_old hlt]
      exact ⟨Nat.lt_succ_of_lt hlt, hd⟩
    · rw [openSession_scanner, if_pos rfl]
      exact ⟨Nat.lt_succ_self _, rfl⟩

end Holdings

/-! ## Every change -/

/-- A change lets the sessions go on or opens one. -/
theorem Change.goesOn {F F' : Multiset Reference} {h h' : Holdings} (hc : Change F h F' h')
    (hs : Holdings.Sound F h) : h.GoesOn h' ∨
      ∃ c text r, c.index < h.contexts.size ∧ h' = h.openSession c text r := by
  cases hc with
  | pending c failures tag => exact .inl (.modifyContext c h fun _ => rfl)
  | hold hr => exact .inl (.take _ h)
  | enter hr => exact .inl (.take _ h)
  | drop r => exact .inl (.giveBack r h)
  | @free _ _ l owned h1 ho hc =>
    obtain ⟨lists, he, _⟩ := Holdings.giveListOwning_eq owned l h
    rw [he]
    exact .inl ((Holdings.GoesOn.giveBack (.list l) h).trans (.of_same rfl rfl))
  | miss r hc hopen hn => exact .inl (.enroll _ _ r _ h)
  | @convert _ _ c v length hc hopen =>
    have hretain : h.GoesOn (h.retain c v) := .modifyContext c h fun _ => rfl
    exact .inl (hretain.trans (.of_same rfl rfl))
  | openSession text r hc hopen => exact .inr ⟨_, text, r, Holdings.valid_of_owned hs hc, rfl⟩
  | openContext p token rules => exact .inl (.openContext rfl h)
  | shutContext c => exact .inl (.shutContext c h)
  | shutScanner s => exact .inl (.shutScanner s h)
  | _ => exact .inl (.of_same rfl rfl)

theorem Change.orderly {F F' : Multiset Reference} {h h' : Holdings} (hc : Change F h F' h')
    (hs : Holdings.Sound F h) (ho : h.Orderly) : h'.Orderly := by
  rcases hc.goesOn hs with hg | ⟨c, text, r, hv, rfl⟩
  · exact ho.goOn hg
  · exact ho.openSession hv text r

namespace Holdings

/-- What becomes of the sessions of a moment: they stay, a closed one stays closed, and a context that
gave up tracking one does not track it again. -/
structure LaterSessions (h h' : Holdings) : Prop where
  size : h.scanners.size ≤ h'.scanners.size
  context : ∀ s, s.index < h.scanners.size → (h'.scanner s).context = (h.scanner s).context
  closed : ∀ s, s.index < h.scanners.size → (h.scanner s).custodian.closed = true →
    (h'.scanner s).custodian.closed = true
  resources : ∀ c, ∀ s ∈ (h'.context c).custodian.resources, s.index < h.scanners.size →
    s ∈ (h.context c).custodian.resources

namespace LaterSessions

variable {h h' h'' : Holdings}

theorem refl (h : Holdings) : h.LaterSessions h :=
  ⟨Nat.le_refl _, fun _ _ => rfl, fun _ _ => id, fun _ _ hs _ => hs⟩

theorem trans (h₁ : h.LaterSessions h') (h₂ : h'.LaterSessions h'') : h.LaterSessions h'' where
  size := Nat.le_trans h₁.size h₂.size
  context s hs := (h₂.context s (Nat.lt_of_lt_of_le hs h₁.size)).trans (h₁.context s hs)
  closed s hs hc := h₂.closed s (Nat.lt_of_lt_of_le hs h₁.size) (h₁.closed s hs hc)
  resources c s hm hs :=
    h₁.resources c s (h₂.resources c s hm (Nat.lt_of_lt_of_le hs h₁.size)) hs

end LaterSessions

theorem GoesOn.later {h h' : Holdings} (hg : h.GoesOn h') : h.LaterSessions h' where
  size := Nat.le_of_eq hg.size.symm
  context s _ := hg.context s
  closed s _ := hg.closed s
  resources c _ hm _ := (hg.resources c).subset hm

theorem openSession_later {h : Holdings} {c : ContextId} (hv : c.index < h.contexts.size)
    (text : String) (r : ObjectRef) : h.LaterSessions (h.openSession c text r) where
  size := by
    rw [openSession_size]
    exact Nat.le_succ _
  context s hs := by rw [openSession_old hs]
  closed s hs hc := by rwa [openSession_old hs]
  resources d s hm hs := by
    rcases (mem_openSession hv).1 hm with ⟨hm, _⟩ | ⟨_, rfl⟩
    · exact hm
    · exact absurd hs (Nat.lt_irrefl _)

end Holdings

theorem Change.laterSessions {F F' : Multiset Reference} {h h' : Holdings} (hc : Change F h F' h')
    (hs : Holdings.Sound F h) : h.LaterSessions h' := by
  rcases hc.goesOn hs with hg | ⟨c, text, r, hv, rfl⟩
  · exact hg.later
  · exact Holdings.openSession_later hv text r

/-- A run of moves keeps sessions in order, and those that are there stay. -/
theorem Moves.orderly_later {F F' : Multiset Reference} {w w' : World} (hm : Moves F w F' w')
    (hs : w.Sound F) (ho : w.Orderly) : w'.Orderly ∧ w.LaterSessions w'.toHoldings :=
  hm.preserves_sound (P := fun h => h.Orderly ∧ w.LaterSessions h) hs ⟨ho, .refl _⟩
    fun hc hsound ⟨horderly, hlater⟩ =>
      ⟨hc.orderly hsound horderly, hlater.trans (hc.laterSessions hsound)⟩

end ProxySession
