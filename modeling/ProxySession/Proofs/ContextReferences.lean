import ProxySession.Proofs.Finality

/-!
# The references of a context

The references of a context are those of variables and running operations, and one for each scanner
session that is alive. Giving a reference back closes the context with the last one, and nobody can take
a new one after that.
-/

namespace ProxySession

open Effect

/-! ## What giving back does to contexts -/

namespace Holdings

variable {F F' : Multiset Reference} {h h' : Holdings} {c d : ContextId}

/-- The scanner sessions of a context that are alive, open or not. -/
def liveSessions (c : ContextId) (h : Holdings) : Nat :=
  h.scanners.countP fun s => s.context = c ∧ s.clones ≠ 0

theorem staked_eq_liveSessions (c : ContextId) (h : Holdings) :
    h.staked (.context c) = h.liveSessions c := by
  change total (ScannerSession.stake c) h.scanners = _
  rw [total, liveSessions, ← Array.countP_toList]
  induction h.scanners.toList with
  | nil => rfl
  | cons s rest ih =>
    rw [List.map_cons, List.sum_cons, ih, List.countP_cons, ScannerSession.stake]
    simp [Nat.add_comm]

/-- A context counts exactly its owners: running operations, variables and live scanner sessions. -/
theorem references_eq (hs : Sound F h) (c : ContextId) : (h.context c).references =
    F.count (.context c) + h.variableReferences.count (.context c) + h.liveSessions c := by
  have hc := hs.counts (.context c)
  rw [owners, Multiset.count_add, Multiset.coe_count, staked_eq_liveSessions] at hc
  exact hc

theorem shutContext_closed_iff : ((h.shutContext c).context d).custodian.closed = true ↔
    (h.context d).custodian.closed = true ∨ c = d ∧ d.index < h.contexts.size := by
  cases hc : (h.context c).custodian.closed with
  | true =>
    rw [shutContext_of_closed hc]
    refine ⟨.inl, fun hd => hd.elim id ?_⟩
    rintro ⟨rfl, _⟩
    exact hc
  | false =>
    have hsize := congrArg Array.size (shutScanners_contexts (h.context c).custodian.resources h)
    rw [shutContext_of_open hc, context_modifyContext, shutScanners_context, hsize]
    split
    · next hd => exact ⟨fun _ => .inr hd, fun _ => rfl⟩
    · next hd => exact ⟨.inl, fun ho => ho.resolve_right hd⟩

theorem lower_references (c d : ContextId) :
    ((h.adjust (· - 1) (.context c)).context d).references =
      if c = d then (h.context d).references - 1 else (h.context d).references := by
  by_cases hd : c = d
  · subst hd
    rw [if_pos rfl]
    exact lower_count_self (.context c)
  · rw [if_neg hd, adjust, context_modifyContext, if_neg fun hc => hd hc.1]

theorem lower_closed (c d : ContextId) :
    ((h.adjust (· - 1) (.context c)).context d).custodian.closed =
      (h.context d).custodian.closed :=
  closed_modifyContext c h (f := fun cx => { cx with references := cx.references - 1 })
    (fun _ => rfl) d

theorem giveContext_references (c d : ContextId) : ((h.giveContext c).context d).references =
    if c = d then (h.context d).references - 1 else (h.context d).references := by
  rw [giveContext_eq]
  split
  · rw [shutContext_references, lower_references]
  · rw [lower_references]

theorem giveContext_closed_iff : ((h.giveContext c).context d).custodian.closed = true ↔
    (h.context d).custodian.closed = true ∨
      c = d ∧ d.index < h.contexts.size ∧ (h.context d).references ≤ 1 := by
  have hsize : (h.adjust (· - 1) (.context c)).contexts.size = h.contexts.size :=
    Array.size_modify
  rw [giveContext_eq]
  split
  · next hr =>
    rw [shutContext_closed_iff, lower_closed, hsize]
    refine or_congr_right ⟨?_, fun hd => ⟨hd.1, hd.2.1⟩⟩
    rintro ⟨rfl, hv⟩
    exact ⟨rfl, hv, hr⟩
  · next hr =>
    rw [lower_closed]
    refine ⟨.inl, fun hd => hd.elim id ?_⟩
    rintro ⟨rfl, _, hle⟩
    exact absurd hle hr

theorem giveList_references (l : ListId) (d : ContextId) :
    ((h.giveList false l).context d).references = (h.context d).references := by
  rw [giveList_eq]
  split
  · exact releaseList_count l _ (.context d)
  · rfl

theorem giveList_closed (l : ListId) (d : ContextId) :
    ((h.giveList false l).context d).custodian.closed = (h.context d).custodian.closed := by
  rw [giveList_eq]
  split
  · exact releaseList_closed l _ d
  · rfl

theorem giveBack_references (r : Reference) (d : ContextId) :
    ((h.giveBack r).context d).references =
      if h.spends r = some d then (h.context d).references - 1 else (h.context d).references := by
  cases r with
  | list l => exact giveList_references l d
  | context c =>
    simp only [giveBack, spends, Option.some.injEq]
    exact giveContext_references c d
  | scanner s =>
    rw [giveBack, giveScanner_eq, spends]
    split
    · rw [giveContext_references]
      simp only [Option.some.injEq]
      rfl
    · rfl

theorem giveBack_closed_iff (r : Reference) (d : ContextId) :
    ((h.giveBack r).context d).custodian.closed = true ↔ (h.context d).custodian.closed = true ∨
      h.spends r = some d ∧ d.index < h.contexts.size ∧ (h.context d).references ≤ 1 := by
  cases r with
  | list l =>
    rw [giveBack, giveList_closed]
    simp [spends]
  | context c =>
    simp only [giveBack, spends, Option.some.injEq]
    exact giveContext_closed_iff
  | scanner s =>
    rw [giveBack, giveScanner_eq, spends]
    split
    · rw [giveContext_closed_iff]
      simp only [Option.some.injEq]
      rfl
    · simp only [reduceCtorEq, false_and, or_false]
      rfl

/-- Who can give a reference to a context back holds one. -/
theorem spends_held {r : Reference} (hs : Sound (r ::ₘ F) h) (hr : h.spends r = some c) :
    (h.context c).references ≠ 0 := by
  have hcount := count_of_owned hs.toConsistent
  cases r with
  | list l => cases hr
  | context d =>
    cases hr
    exact hcount
  | scanner s =>
    rw [spends] at hr
    split at hr
    · next h1 =>
      cases hr
      change (h.scanner s).clones ≠ 0 at hcount
      exact count_of_owned (lower_scanner_last hs (by omega)).toConsistent
    · cases hr

end Holdings

/-! ## Gone for good -/

/-- Nobody can take a reference to a context that has none. -/
theorem Change.dropped {F F' : Multiset Reference} {h h' : Holdings} {c : ContextId}
    (hc : Change F h F' h') (hs : Holdings.Sound F h) (hv : c.index < h.contexts.size)
    (h0 : (h.context c).references = 0) : (h'.context c).references = 0 := by
  have hmodify (d : ContextId) (h : Holdings) {f : Context → Context}
      (hf : ∀ cx : Context, (f cx).references = cx.references)
      (h0 : (h.context c).references = 0) : ((h.modifyContext d f).context c).references = 0 :=
    (Holdings.same_modifyContext Context.references d h hf c).trans h0
  have htake {r : Reference} (hr : h.count r ≠ 0) : ((h.take r).context c).references = 0 := by
    have hcount := Holdings.count_adjust (f := (· + 1)) hr (.context c)
    rw [Holdings.take_eq_adjust]
    refine hcount.trans ?_
    rw [if_neg (by rintro rfl; exact hr h0)]
    exact h0
  cases hc with
  | pending d failures tag => exact hmodify d h (fun _ => rfl) h0
  | hold hr => exact htake (Holdings.count_of_variable hs hr)
  | enter hr => exact htake hr
  | drop r =>
    rw [Holdings.giveBack_references, h0]
    exact ite_self 0
  | @free _ _ l owned h1 ho hd =>
    obtain ⟨lists, he, _⟩ := Holdings.giveListOwning_eq owned l h
    rw [he]
    exact (Holdings.giveList_references l c).trans h0
  | miss r hd ho hn =>
    exact hmodify _ _ (fun cx => by cases ‹ProxyKind› <;> rfl) (hmodify _ h (fun _ => rfl) h0)
  | convert v length hd ho => exact hmodify _ h (fun _ => rfl) h0
  | @openSession _ _ d text r hd ho =>
    have hheld : (h.context d).references ≠ 0 := by
      rw [Holdings.references_eq hs]
      have := Multiset.count_pos.2 hd
      omega
    rw [Holdings.openSession_context text r (Holdings.valid_of_owned hs hd),
      if_neg (by rintro rfl; exact hheld h0)]
    exact h0
  | openContext p token rules =>
    rw [Holdings.openContext_context, if_neg (Nat.ne_of_lt hv)]
    exact h0
  | shutContext d =>
    rw [Holdings.shutContext_references]
    exact h0
  | _ => exact h0

/-- A context that has lost its last reference stays without one. -/
theorem Moves.dropped {F F' : Multiset Reference} {w w' : World} {c : ContextId}
    (hm : Moves F w F' w') (hs : w.Sound F) (hv : c.index < w.contexts.size)
    (h0 : (w.context c).references = 0) : (w'.context c).references = 0 :=
  (hm.preserves_sound (P := fun h => c.index < h.contexts.size ∧ (h.context c).references = 0) hs ⟨hv, h0⟩
    fun hc hsound ⟨hv, h0⟩ => ⟨hv.trans_le hc.size_le, hc.dropped hsound hv h0⟩).2

end ProxySession
