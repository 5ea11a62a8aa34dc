import ProxySession.Proofs.Invariant

/-!
# Owners and their counts

A reference that is taken has one owner more, one that is given back has one less. As long as an
owner is left, contexts, lists and scanner sessions see nothing of it.
-/

namespace ProxySession

namespace Holdings

variable {F F' : Multiset Reference} {h h' : Holdings} {r : Reference}

/-! ## Quiet changes -/

theorem Context.Alike.refl (cx : Context) : cx.Alike cx := ⟨rfl, fun _ => rfl, rfl⟩

theorem Consistent.quiet (hc : Consistent F h) (hu : ∀ c, Undisturbed h h' c)
    (hsize : h'.contexts.size = h.contexts.size) (hnames : (h'.bindings.map Prod.fst).Nodup)
    (hcounts : ∀ r, h'.count r = h'.owners F' r) (hlists : h'.lists.size = h.lists.size)
    (hlist : ∀ l, (h'.list l).context = (h.list l).context)
    (hleft : ∀ l, (h'.list l).left = true → (h'.list l).clones = 0)
    (hscanners : h'.scanners.size = h.scanners.size)
    (hscanner : ∀ s, (h'.scanner s).context = (h.scanner s).context)
    (hresolutions : h'.resolutions = h.resolutions) : Consistent F' h' where
  names := hnames
  counts := hcounts
  lists l hl := by
    rw [hlist, hsize]
    exact hc.lists l (hlists ▸ hl)
  left := hleft
  scanners s hs := by
    rw [hscanner, hsize]
    exact hc.scanners s (hscanners ▸ hs)
  resolutions ρ hρ := by
    rw [hsize]
    exact hc.resolutions ρ (hresolutions ▸ hρ)
  alive c hv ho := by
    rw [(hu c).alike.custodian] at ho
    exact (hu c).alive (hc.alive c (hsize ▸ hv) ho)
  ended c ho := by
    rw [(hu c).alike.custodian] at ho
    exact (hu c).ended (hc.ended c ho)

theorem modifyContext_undisturbed {c : ContextId} {f : Context → Context}
    (hf : ∀ cx : Context, cx.Alike (f cx)) (d : ContextId) :
    Undisturbed h (h.modifyContext c f) d where
  alike := by
    rw [context_modifyContext]
    split
    · exact hf _
    · exact Context.Alike.refl _
  sessions _ hs := ⟨hs.valid, hs.context, hs.isOpen⟩
  shares := rfl
  resolutions := rfl

theorem modifyList_undisturbed {l : ListId} {f : NodeList → NodeList} {d : ContextId}
    (hf : (f (h.list l)).share d = (h.list l).share d) : Undisturbed h (h.modifyList l f) d where
  alike := Context.Alike.refl _
  sessions _ hs := ⟨hs.valid, hs.context, hs.isOpen⟩
  shares := total_modify_same hf
  resolutions := rfl

theorem modifyScanner_undisturbed {s : ScannerId} {f : ScannerSession → ScannerSession}
    (hf : ∀ session, (f session).context = session.context ∧
      ((f session).custodian.closed = false → session.custodian.closed = false))
    (d : ContextId) : Undisturbed h (h.modifyScanner s f) d where
  alike := Context.Alike.refl _
  sessions t ht := by
    obtain ⟨hv, hctx, ho⟩ := ht
    rw [scanner_modifyScanner] at hctx ho
    have hv' : t.index < h.scanners.size := by simpa [modifyScanner] using hv
    split at ho
    · next hst =>
      rw [if_pos hst, (hf _).1] at hctx
      exact ⟨hv', hctx, (hf _).2 ho⟩
    · next hst =>
      rw [if_neg hst] at hctx
      exact ⟨hv', hctx, ho⟩
  shares := rfl
  resolutions := rfl

/-! ## Counts -/

theorem owners_cons (F : Multiset Reference) (h : Holdings) (r r' : Reference) :
    h.owners (r ::ₘ F) r' = h.owners F r' + if r' = r then 1 else 0 := by
  rw [owners, owners, Multiset.cons_add, Multiset.count_cons]
  omega

/-- Changes how often something is held. -/
def adjust (f : Nat → Nat) : Reference → Holdings → Holdings
  | .list l => modifyList l fun cell => { cell with clones := f cell.clones }
  | .context c => modifyContext c fun cx => { cx with references := f cx.references }
  | .scanner s => modifyScanner s fun session => { session with clones := f session.clones }

theorem take_eq_adjust (r : Reference) (h : Holdings) : h.take r = h.adjust (· + 1) r := by
  cases r <;> rfl

theorem count_adjust {f : Nat → Nat} {r : Reference} (hr : h.count r ≠ 0) (r' : Reference) :
    (h.adjust f r).count r' = if r' = r then f (h.count r') else h.count r' := by
  have hv := valid_of_count hr
  cases r <;> cases r'
  case list.list l m =>
    simp only [adjust, count, list_modifyList, Reference.list.injEq]
    by_cases he : m = l
    · subst he
      simp [show m.index < h.lists.size from hv]
    · simp [he, Ne.symm he]
  case context.context c d =>
    simp only [adjust, count, context_modifyContext, Reference.context.injEq]
    by_cases he : d = c
    · subst he
      simp [show d.index < h.contexts.size from hv]
    · simp [he, Ne.symm he]
  case scanner.scanner s t =>
    simp only [adjust, count, scanner_modifyScanner, Reference.scanner.injEq]
    by_cases he : t = s
    · subst he
      simp [show t.index < h.scanners.size from hv]
    · simp [he, Ne.symm he]
  all_goals rfl

/-- A change that kills nothing and brings nothing to life. -/
def Gentle (f : Nat → Nat) (r : Reference) (h : Holdings) : Prop :=
  (f (h.count r) ≠ 0 ↔ h.count r ≠ 0) ∨ ∃ c, r = .context c

theorem Gentle.alive_iff {f : Nat → Nat} {r : Reference} (hg : Gentle f r h) (hr : ∀ c, r ≠ .context c) :
    f (h.count r) ≠ 0 ↔ h.count r ≠ 0 := by
  rcases hg with hiff | ⟨c, hc⟩
  · exact hiff
  · exact absurd hc (hr c)

theorem staked_adjust {f : Nat → Nat} {r : Reference} (hg : Gentle f r h) (r' : Reference) :
    (h.adjust f r).staked r' = h.staked r' := by
  cases r with
  | scanner s =>
    cases r' with
    | context c =>
      have hf : f (h.scanner s).clones ≠ 0 ↔ (h.scanner s).clones ≠ 0 :=
        hg.alive_iff fun _ hc => by cases hc
      refine total_modify_same (d := default) ?_
      change ScannerSession.stake c { h.scanner s with clones := f (h.scanner s).clones } = _
      simp only [ScannerSession.stake, hf]
      rfl
    | _ => rfl
  | _ => cases r' <;> rfl

theorem adjust_undisturbed {f : Nat → Nat} {r : Reference} (hg : Gentle f r h) (d : ContextId) :
    Undisturbed h (h.adjust f r) d := by
  cases r with
  | list l =>
    have hf : f (h.list l).clones ≠ 0 ↔ (h.list l).clones ≠ 0 :=
      hg.alive_iff fun _ hc => by cases hc
    exact modifyList_undisturbed (by simp only [NodeList.share, hf])
  | context c =>
    refine modifyContext_undisturbed (f := fun cx => { cx with references := f cx.references })
      (fun cx => ⟨rfl, fun k => ?_, rfl⟩) d
    cases k <;> rfl
  | scanner s =>
    exact modifyScanner_undisturbed (f := fun session => { session with clones := f session.clones })
      (fun _ => ⟨rfl, id⟩) d

theorem adjust_bindings (f : Nat → Nat) (r : Reference) (h : Holdings) :
    (h.adjust f r).bindings = h.bindings := by
  cases r <;> rfl

theorem Consistent.adjust (hc : Consistent F h) {f : Nat → Nat} {r : Reference}
    (hg : Gentle f r h) (hcounts : ∀ r', (h.adjust f r).count r' = h.owners F' r') :
    Consistent F' (h.adjust f r) := by
  have howners (r' : Reference) : (h.adjust f r).owners F' r' = h.owners F' r' := by
    rw [owners, staked_adjust hg, variableReferences, adjust_bindings]
    rfl
  refine hc.quiet (adjust_undisturbed hg) ?contexts ?names (fun r' => by rw [howners, hcounts]) ?lists
    ?listContexts ?left ?scanners ?scannerContexts ?resolutions
  case contexts => cases r <;> simp [Holdings.adjust, modifyContext, modifyList, modifyScanner]
  case names =>
    rw [adjust_bindings]
    exact hc.names
  case lists => cases r <;> simp [Holdings.adjust, modifyContext, modifyList, modifyScanner]
  case listContexts =>
    intro l
    cases r with
    | list m =>
      simp only [Holdings.adjust, list_modifyList]
      split <;> rfl
    | _ => rfl
  case left =>
    -- Only lists without a clone are left, and no clone is made of nothing.
    intro l hl
    cases r with
    | list m =>
      have hg : f (h.list m).clones ≠ 0 ↔ (h.list m).clones ≠ 0 :=
        hg.alive_iff fun _ hc => by cases hc
      simp only [Holdings.adjust, list_modifyList] at hl ⊢
      split at hl
      · next hm =>
        rw [if_pos hm]
        obtain ⟨rfl, -⟩ := hm
        exact not_ne_iff.1 (mt hg.1 (not_ne_iff.2 (hc.left m hl)))
      · next hm =>
        rw [if_neg hm]
        exact hc.left l hl
    | _ => exact hc.left l hl
  case scanners => cases r <;> simp [Holdings.adjust, modifyContext, modifyList, modifyScanner]
  case scannerContexts =>
    intro s
    cases r with
    | scanner t =>
      simp only [Holdings.adjust, scanner_modifyScanner]
      split <;> rfl
    | _ => rfl
  case resolutions => cases r <;> rfl

/-! ## Taking -/

theorem take_sound (hs : Sound F h) {r : Reference} (hr : h.count r ≠ 0) :
    Sound (r ::ₘ F) (h.take r) := by
  rw [take_eq_adjust]
  have hg : Gentle (· + 1) r h := .inl ⟨fun _ => hr, fun _ => Nat.succ_ne_zero _⟩
  have hcounts (r' : Reference) :
      (h.adjust (· + 1) r).count r' = h.count r' + if r' = r then 1 else 0 := by
    rw [count_adjust hr]
    split <;> rfl
  refine ⟨hs.toConsistent.adjust hg fun r' => ?_, fun c hv ho => ?_⟩
  · rw [hcounts, owners_cons, hs.counts]
  · have hu := adjust_undisturbed hg c
    rw [hu.alike.custodian] at ho
    have hsize : (h.adjust (· + 1) r).contexts.size = h.contexts.size := by
      cases r <;> simp [Holdings.adjust, modifyContext, modifyList, modifyScanner]
    have hold := hs.referenced c (hsize ▸ hv) ho
    have hnew := hcounts (.context c)
    change (h.context c).references ≠ 0 at hold
    change ((h.adjust (· + 1) r).context c).references = (h.context c).references + _ at hnew
    omega

/-! ## Giving back -/

theorem count_of_owned (hc : Consistent (r ::ₘ F) h) : h.count r ≠ 0 := by
  rw [hc.counts, owners_cons, if_pos rfl]
  omega

/-- Of the owners, only the running operation that gives the reference back is gone. -/
theorem lower_count (hc : Consistent (r ::ₘ F) h) (r' : Reference) :
    (h.adjust (· - 1) r).count r' = h.owners F r' := by
  have hcount := hc.counts r'
  rw [owners_cons] at hcount
  rw [count_adjust (count_of_owned hc)]
  split
  · next he =>
    rw [if_pos he] at hcount
    omega
  · next he =>
    rw [if_neg he] at hcount
    exact hcount

theorem lower_consistent (hc : Consistent (r ::ₘ F) h)
    (hg : h.count r ≠ 1 ∨ ∃ c, r = .context c) : Consistent F (h.adjust (· - 1) r) := by
  have hr := count_of_owned hc
  refine hc.adjust ?_ (lower_count hc)
  rcases hg with hg | hg
  · refine .inl ?_
    change h.count r - 1 ≠ 0 ↔ h.count r ≠ 0
    omega
  · exact .inr hg

end Holdings

end ProxySession
