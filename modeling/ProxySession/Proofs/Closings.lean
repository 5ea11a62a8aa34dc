import ProxySession.Proofs.Owners

/-!
# Closing keeps the invariant

A scanner session that closes is closed for good. A context that closes first closes the sessions
that it tracks, so it is left with no slot, no entry and no open session.
-/

namespace ProxySession

namespace ScannerSession

@[simp] theorem shut_context (s : ScannerSession) : s.shut.context = s.context := by
  unfold shut
  split <;> rfl

@[simp] theorem shut_clones (s : ScannerSession) : s.shut.clones = s.clones := by
  unfold shut
  split <;> rfl

@[simp] theorem shut_closed (s : ScannerSession) : s.shut.custodian.closed = true := by
  unfold shut
  split
  · assumption
  · rfl

end ScannerSession

namespace Holdings

variable {F : Multiset Reference} {h : Holdings}

/-! ## Scanner sessions -/

theorem shutScanner_scanner (s t : ScannerId) (h : Holdings) : (h.shutScanner s).scanner t =
    if s = t ∧ t.index < h.scanners.size then (h.scanner t).shut else h.scanner t :=
  scanner_modifyScanner s t _ h

@[simp] theorem shutScanner_size (s : ScannerId) (h : Holdings) :
    (h.shutScanner s).scanners.size = h.scanners.size := by
  simp [shutScanner, modifyScanner]

theorem shutScanner_staked (s : ScannerId) (r : Reference) :
    (h.shutScanner s).staked r = h.staked r := by
  cases r with
  | context c =>
    exact total_modify_same (d := default) (by simp [ScannerSession.stake])
  | _ => rfl

theorem shutScanner_count (s : ScannerId) (r : Reference) :
    (h.shutScanner s).count r = h.count r := by
  cases r with
  | scanner t =>
    simp only [count, shutScanner_scanner]
    split <;> simp
  | _ => rfl

theorem shutScanner_undisturbed (s : ScannerId) (d : ContextId) :
    Undisturbed h (h.shutScanner s) d :=
  modifyScanner_undisturbed (fun session => ⟨session.shut_context, fun hs => by simp at hs⟩) d

theorem shutScanner_consistent (hc : Consistent F h) (s : ScannerId) :
    Consistent F (h.shutScanner s) := by
  refine hc.quiet (shutScanner_undisturbed s) rfl hc.names (fun r => ?_) rfl (fun _ => rfl) hc.left
    (shutScanner_size s h) (fun t => ?_) rfl
  · rw [shutScanner_count, hc.counts, owners, owners, shutScanner_staked]
    rfl
  · rw [shutScanner_scanner]
    split <;> simp

theorem shutScanner_sound (hs : Sound F h) (s : ScannerId) : Sound F (h.shutScanner s) :=
  ⟨shutScanner_consistent hs.toConsistent s, hs.referenced⟩

theorem shutScanners_consistent (hc : Consistent F h) (ss : List ScannerId) :
    Consistent F (h.shutScanners ss) := by
  induction ss generalizing h with
  | nil => exact hc
  | cons s rest ih => exact ih (shutScanner_consistent hc s)

/-- Sessions that are closed stay closed. -/
theorem shutScanners_closed (ss : List ScannerId) {t : ScannerId}
    (ht : (h.scanner t).custodian.closed = true) :
    ((h.shutScanners ss).scanner t).custodian.closed = true := by
  induction ss generalizing h with
  | nil => exact ht
  | cons s rest ih =>
    refine ih ?_
    rw [shutScanner_scanner]
    split
    · exact (h.scanner t).shut_closed
    · exact ht

/-- All sessions in a list are closed one after the other. -/
theorem shutScanners_mem {ss : List ScannerId} {t : ScannerId} (ht : t ∈ ss)
    (hv : t.index < h.scanners.size) : ((h.shutScanners ss).scanner t).custodian.closed = true := by
  induction ss generalizing h with
  | nil => exact absurd ht List.not_mem_nil
  | cons s rest ih =>
    rcases List.mem_cons.1 ht with rfl | ht
    · refine shutScanners_closed rest ?_
      rw [shutScanner_scanner, if_pos ⟨rfl, hv⟩]
      exact (h.scanner t).shut_closed
    · exact ih ht (by rwa [shutScanner_size])

@[simp] theorem shutScanners_size (ss : List ScannerId) (h : Holdings) :
    (h.shutScanners ss).scanners.size = h.scanners.size := by
  induction ss generalizing h with
  | nil => rfl
  | cons s rest ih => exact (ih (h.shutScanner s)).trans (shutScanner_size s h)

theorem shutScanners_context (ss : List ScannerId) (h : Holdings) (c : ContextId) :
    (h.shutScanners ss).context c = h.context c := by
  rw [Holdings.context, shutScanners_contexts, Holdings.context]

/-! ## Contexts -/

/-- Another context sees nothing of the closing of a context itself. -/
theorem shut_undisturbed {c d : ContextId} (hd : c ≠ d) :
    Undisturbed h (h.modifyContext c Context.shut) d where
  alike := by
    rw [context_modifyContext, if_neg fun hc => hd hc.1]
    exact Context.Alike.refl _
  sessions _ hs := ⟨hs.valid, hs.context, hs.isOpen⟩
  shares := rfl
  resolutions := rfl

/-- A context that was torn down is in order, as all sessions that it tracked are closed. -/
theorem shut_ended {c : ContextId} (hv : c.index < h.contexts.size)
    (hs : ∀ s, ¬h.OpenOn s c) : (h.modifyContext c Context.shut).Ended c := by
  have hx : (h.modifyContext c Context.shut).context c = (h.context c).shut := by
    rw [context_modifyContext, if_pos ⟨rfl, hv⟩]
  refine ⟨?_, ?_, fun k => ?_, fun s ho => hs s ⟨ho.valid, ho.context, ho.isOpen⟩⟩
  · rw [hx]
    rfl
  · rw [hx]
    rfl
  · rw [hx]
    cases k <;> rfl

theorem shutContext_of_open {c : ContextId} (ho : (h.context c).custodian.closed = false) :
    h.shutContext c =
      (h.shutScanners (h.context c).custodian.resources).modifyContext c Context.shut :=
  if_neg (by simp [ho])

theorem shutContext_of_closed {c : ContextId} (ho : (h.context c).custodian.closed = true) :
    h.shutContext c = h :=
  if_pos ho

/-- A context that is open tracks its open sessions, so closing what it tracks leaves none open. -/
theorem none_open_of_tracked (hc : Consistent F h) {c : ContextId} (hv : c.index < h.contexts.size)
    (ho : (h.context c).custodian.closed = false) (s : ScannerId) :
    ¬(h.shutScanners (h.context c).custodian.resources).OpenOn s c := by
  intro hs
  have hc₁ := shutScanners_consistent hc (h.context c).custodian.resources
  have hx := shutScanners_context (h.context c).custodian.resources h c
  have hm := (hc₁.alive c (by simpa using hv) (by rw [hx, ho])).tracked s hs
  rw [hx] at hm
  have hclosed := shutScanners_mem hm (by simpa using hs.valid)
  rw [hs.isOpen] at hclosed
  cases hclosed

theorem shut_consistent (hc : Consistent F h) {c : ContextId}
    (hsessions : c.index < h.contexts.size → ∀ s, ¬h.OpenOn s c) :
    Consistent F (h.modifyContext c Context.shut) := by
  have hcount (r : Reference) : (h.modifyContext c Context.shut).count r = h.count r := by
    cases r with
    | context d =>
      simp only [count, context_modifyContext]
      split <;> rfl
    | _ => rfl
  have hcontexts : (h.modifyContext c Context.shut).contexts.size = h.contexts.size := by
    simp [modifyContext]
  refine ⟨hc.names, fun r => ?counts, fun l hl => ?lists, hc.left, fun s hs => ?scanners,
    fun ρ hρ => ?resolutions, fun d hv hd => ?alive, fun d hd => ?ended⟩
  case counts =>
    rw [hcount, hc.counts]
    cases r <;> rfl
  case lists =>
    rw [hcontexts]
    exact hc.lists l hl
  case scanners =>
    rw [hcontexts]
    exact hc.scanners s hs
  case resolutions =>
    rw [hcontexts]
    exact hc.resolutions ρ hρ
  case alive =>
    rw [hcontexts] at hv
    have hne : c ≠ d := by
      rintro rfl
      rw [context_modifyContext, if_pos ⟨rfl, hv⟩] at hd
      cases hd
    have hu := shut_undisturbed (h := h) hne
    rw [hu.alike.custodian] at hd
    exact hu.alive (hc.alive d hv hd)
  case ended =>
    have hv := valid_of_closed hd
    rw [hcontexts] at hv
    by_cases hne : c = d
    · subst hne
      exact shut_ended hv (hsessions hv)
    · have hu := shut_undisturbed (h := h) hne
      rw [hu.alike.custodian] at hd
      exact hu.ended (hc.ended d hd)

theorem shutContext_consistent (hc : Consistent F h) (c : ContextId) :
    Consistent F (h.shutContext c) := by
  cases ho : (h.context c).custodian.closed with
  | true =>
    rw [shutContext_of_closed ho]
    exact hc
  | false =>
    rw [shutContext_of_open ho]
    have hsize := congrArg Array.size (shutScanners_contexts (h.context c).custodian.resources h)
    exact shut_consistent (shutScanners_consistent hc _) fun hv =>
      none_open_of_tracked hc (hsize ▸ hv) ho

/-- Closing leaves the references as they are. -/
theorem shutContext_references (c d : ContextId) :
    ((h.shutContext c).context d).references = (h.context d).references := by
  cases ho : (h.context c).custodian.closed with
  | true => rw [shutContext_of_closed ho]
  | false =>
    rw [shutContext_of_open ho, context_modifyContext, shutScanners_context]
    split <;> rfl

theorem shutContext_size (c : ContextId) :
    (h.shutContext c).contexts.size = h.contexts.size := by
  unfold shutContext
  split
  · rfl
  · simp [modifyContext]

/-- What is open after a closing was open before, and is another context. -/
theorem open_of_shutContext {c d : ContextId} (hv : d.index < h.contexts.size)
    (ho : ((h.shutContext c).context d).custodian.closed = false) :
    c ≠ d ∧ (h.context d).custodian.closed = false := by
  cases hc : (h.context c).custodian.closed with
  | true =>
    rw [shutContext_of_closed hc] at ho
    refine ⟨?_, ho⟩
    rintro rfl
    rw [hc] at ho
    cases ho
  | false =>
    rw [shutContext_of_open hc, context_modifyContext, shutScanners_context] at ho
    split at ho
    · cases ho
    · next hn =>
      have hcontexts := congrArg Array.size
        (shutScanners_contexts (h.context c).custodian.resources h)
      exact ⟨fun he => hn ⟨he, hcontexts ▸ hv⟩, ho⟩

theorem shutContext_sound (hs : Sound F h) (c : ContextId) : Sound F (h.shutContext c) :=
  ⟨shutContext_consistent hs.toConsistent c, fun d hv ho => by
    rw [shutContext_size] at hv
    rw [shutContext_references]
    exact hs.referenced d hv (open_of_shutContext hv ho).2⟩

end Holdings

end ProxySession
