import ProxySession.Proofs.SessionOrder

/-!
# The lifespan of a scanner session

A scanner session closes once: by its own closing, when its last clone goes, or with its context,
whichever comes first.
-/

namespace ProxySession

open Effect

namespace Holdings

variable {F : Multiset Reference} {h : Holdings} {s t : ScannerId} {c : ContextId}

/-! ## What closes a session -/

theorem shut_shut (session : ScannerSession) : session.shut.shut = session.shut :=
  if_pos session.shut_closed

theorem shutScanners_scanner (ss : List ScannerId) (t : ScannerId) (h : Holdings) :
    (h.shutScanners ss).scanner t = h.scanner t ∨
      (h.shutScanners ss).scanner t = (h.scanner t).shut ∧ t ∈ ss := by
  induction ss generalizing h with
  | nil => exact .inl rfl
  | cons s rest ih =>
    have hrest := ih (h.shutScanner s)
    rw [shutScanner_scanner] at hrest
    split at hrest
    · next hst =>
      rw [shut_shut] at hrest
      exact .inr ⟨hrest.elim id And.left, List.mem_cons.2 (.inl hst.1.symm)⟩
    · exact hrest.imp_right fun ht => ⟨ht.1, List.mem_cons_of_mem s ht.2⟩

/-- A context closes only sessions that it tracks. -/
theorem shutContext_scanner (c : ContextId) (s : ScannerId) (h : Holdings) :
    (h.shutContext c).scanner s = h.scanner s ∨ (h.shutContext c).scanner s = (h.scanner s).shut ∧
      (h.context c).custodian.closed = false ∧ s ∈ (h.context c).custodian.resources := by
  cases hc : (h.context c).custodian.closed with
  | true =>
    rw [shutContext_of_closed hc]
    exact .inl rfl
  | false =>
    rw [shutContext_of_open hc]
    exact (shutScanners_scanner _ s h).imp_right fun hs => ⟨hs.1, rfl, hs.2⟩

theorem giveContext_scanner (c : ContextId) (s : ScannerId) (h : Holdings) :
    (h.giveContext c).scanner s = h.scanner s ∨ (h.giveContext c).scanner s = (h.scanner s).shut ∧
      (h.context c).references ≤ 1 ∧ s ∈ (h.context c).custodian.resources := by
  rw [giveContext_eq]
  split
  · next hr =>
    have hresources : ((h.adjust (· - 1) (.context c)).context c).custodian.resources =
        (h.context c).custodian.resources :=
      same_modifyContext (fun cx => cx.custodian.resources) c h
        (f := fun cx => { cx with references := cx.references - 1 }) (fun _ => rfl) c
    refine (shutContext_scanner c s (h.adjust (· - 1) (.context c))).imp_right fun hs => ?_
    exact ⟨hs.1, hr, hresources ▸ hs.2.2⟩
  · exact .inl rfl

/-- What is given back closes no other session, except for those of a context whose last reference
goes with it. -/
theorem giveBack_scanner {r : Reference} (hr : r ≠ .scanner s) (h : Holdings) :
    (h.giveBack r).scanner s = h.scanner s ∨ (h.giveBack r).scanner s = (h.scanner s).shut ∧
      ∃ c, h.spends r = some c ∧ (h.context c).references ≤ 1 ∧
        s ∈ (h.context c).custodian.resources := by
  cases r with
  | list l =>
    refine .inl ?_
    have hscanners : (h.giveList false l).scanners = h.scanners := by
      rw [giveList_eq]
      split
      · exact (releaseList_same l _).2.2.1
      · rfl
    rw [giveBack, scanner, hscanners, scanner]
  | context c => exact (giveContext_scanner c s h).imp_right fun hs => ⟨hs.1, c, rfl, hs.2⟩
  | scanner t =>
    have hts : t ≠ s := fun he => hr (congrArg Reference.scanner he)
    rw [giveBack, giveScanner_eq, spends]
    split
    · have hx : ((h.adjust (· - 1) (.scanner t)).shutScanner t).scanner s = h.scanner s := by
        rw [lower_shut_scanner, if_neg fun he => hts he.1]
      have hg := giveContext_scanner (h.scanner t).context s
        ((h.adjust (· - 1) (.scanner t)).shutScanner t)
      rw [hx] at hg
      exact hg.imp_right fun hs => ⟨hs.1, _, rfl, hs.2⟩
    · refine .inl ?_
      rw [adjust, scanner_modifyScanner, if_neg fun he => hts he.1]

/-- The last clone of a session closes it. -/
theorem giveBack_last (hv : s.index < h.scanners.size) (h1 : (h.scanner s).clones = 1) :
    ((h.giveBack (.scanner s)).scanner s).custodian.closed = true := by
  rw [giveBack, giveScanner_eq, if_pos (Nat.le_of_eq h1)]
  refine (GoesOn.giveContext _ _).closed s ?_
  rw [lower_shut_scanner, if_pos ⟨rfl, hv⟩]
  exact ScannerSession.shut_closed _

theorem giveBack_clone (h1 : (h.scanner s).clones ≠ 1) (h0 : (h.scanner s).clones ≠ 0) :
    ((h.giveBack (.scanner s)).scanner s).custodian = (h.scanner s).custodian := by
  rw [giveBack, giveScanner_eq, if_neg (by omega), adjust, scanner_modifyScanner]
  split <;> rfl

/-- While a session is open, its context does not lose its last reference. -/
theorem liveSessions_ne_zero (hv : s.index < h.scanners.size)
    (h0 : (h.scanner s).clones ≠ 0) : h.liveSessions (h.scanner s).context ≠ 0 := by
  have hx : h.scanner s = h.scanners[s.index] :=
    (Array.getElem_eq_getD default).symm
  refine Nat.pos_iff_ne_zero.1 (Array.countP_pos_iff.2 ⟨h.scanner s, ?_, by simpa using h0⟩)
  rw [hx]
  exact Array.getElem_mem hv

end Holdings

/-- The ways for a session to close: it is told to, its last clone goes, or its context is told to
close. -/
inductive Closes (s : ScannerId) : Multiset Reference × World → Multiset Reference × World → Prop
  | told {F w w'} (hw : w'.toHoldings = (World.closeScanner s w).2.toHoldings) :
    Closes s (F, w) (F, w')
  | dropped {F w w'} (h1 : (w.scanner s).clones = 1)
    (hw : w'.toHoldings = (World.giveBack (.scanner s) w).toHoldings) :
    Closes s (.scanner s ::ₘ F, w) (F, w')
  | context {F w w'} (ho : (w.context (w.scanner s).context).custodian.closed = false)
    (hw : w'.toHoldings = (World.tearDown (w.scanner s).context w).2.toHoldings) :
    Closes s (F, w) (F, w')

/-- A run in which a session is open up to one moment and closes at that. -/
def ClosesWithin (s : ScannerId) (p q : Multiset Reference × World) : Prop :=
  ∃ p₁ p₂, Relation.ReflTransGen Move p p₁ ∧ (p₁.2.scanner s).custodian.closed = false ∧
    Move p₁ p₂ ∧ Closes s p₁ p₂ ∧ Relation.ReflTransGen Move p₂ q

section

variable {F F' : Multiset Reference} {w w' : World} {s : ScannerId}

/-- A change closes an open session only in one of these ways. -/
theorem Change.closes {h' : Holdings} (hc : Change F w.toHoldings F' h') (hs : w.Sound F)
    (ho : w.Orderly) (hv : s.index < w.scanners.size)
    (hopen : (w.scanner s).custodian.closed = false)
    (hclosed : (h'.scanner s).custodian.closed = true) (hw : w'.toHoldings = h') :
    Closes s (F, w) (F', w') := by
  have hsame (he : (h'.scanner s).custodian = (w.scanner s).custodian) : False := by
    rw [he, hopen] at hclosed
    cases hclosed
  cases hc with
  | @hold _ _ r hr =>
    refine absurd ?_ hsame
    cases r with
    | scanner t =>
      rw [Holdings.take, Holdings.scanner_modifyScanner]
      split <;> rfl
    | _ => rfl
  | drop r =>
    by_cases hr : r = .scanner s
    · subst hr
      have h0 : (w.scanner s).clones ≠ 0 := Holdings.count_of_owned hs.toConsistent
      by_cases h1 : (w.scanner s).clones = 1
      · exact .dropped h1 (hw.trans (World.giveBack_becomes _ w).holdings.symm)
      · exact absurd (Holdings.giveBack_clone h1 h0) hsame
    · rcases Holdings.giveBack_scanner hr w.toHoldings with he | ⟨he, c, hspends, hle, hm⟩
      · exact absurd (congrArg ScannerSession.custodian he) hsame
      · -- The session is alive all the time, so its context keeps a reference.
        exfalso
        have hs' : Holdings.Sound F' (w.toHoldings.giveBack r) := Holdings.giveBack_sound hs
        have hg := Holdings.GoesOn.giveBack r w.toHoldings
        have hcontext := (ho.own c s hm).2
        have hclones : ((w.toHoldings.giveBack r).scanner s).clones ≠ 0 := by
          rw [he, ScannerSession.shut_clones]
          exact ((ho.sessions s hv).full hopen).1
        have hlive := Holdings.liveSessions_ne_zero (hg.size.symm ▸ hv) hclones
        rw [hg.context, hcontext] at hlive
        have hrefs := Holdings.references_eq hs' c
        rw [Holdings.giveBack_references, if_pos hspends] at hrefs
        omega
  | @free _ _ l owned h1 ho hc =>
    obtain ⟨lists, he, _⟩ := Holdings.giveListOwning_eq owned l w.toHoldings
    rw [he] at hsame
    have hne : Reference.list l ≠ .scanner s := fun hr => by cases hr
    rcases Holdings.giveBack_scanner hne w.toHoldings with he | ⟨_, _, hspends, _⟩
    · exact absurd (congrArg ScannerSession.custodian he) hsame
    · cases hspends
  | openSession text r hc hopen' =>
    exact absurd (congrArg ScannerSession.custodian (Holdings.openSession_old hv _ text r)) hsame
  | shutContext c =>
    rcases Holdings.shutContext_scanner c s w.toHoldings with he | ⟨_, hc, hm⟩
    · exact absurd (congrArg ScannerSession.custodian he) hsame
    · have hcontext := (ho.own c s hm).2
      subst hcontext
      exact .context hc (hw.trans (World.tearDown_becomes _ w).holdings.symm)
  | shutScanner t =>
    by_cases hts : t = s
    · subst hts
      exact .told (hw.trans (World.closeScanner_becomes t w).holdings.symm)
    · refine absurd ?_ hsame
      rw [Holdings.shutScanner_scanner, if_neg fun he => hts he.1]
  | _ => exact absurd rfl hsame

/-- Each of these ways closes the session. -/
theorem Closes.closed (hc : Closes s (F, w) (F', w')) (hs : w.Sound F)
    (hv : s.index < w.scanners.size) : (w'.scanner s).custodian.closed = true := by
  cases hc with
  | told hw =>
    rw [hw, (World.closeScanner_becomes s w).holdings, Holdings.shutScanner_scanner,
      if_pos ⟨rfl, hv⟩]
    exact ScannerSession.shut_closed _
  | dropped h1 hw =>
    rw [hw, (World.giveBack_becomes _ w).holdings]
    exact Holdings.giveBack_last hv h1
  | context ho hw =>
    have hh := hw.trans (World.tearDown_becomes (w.scanner s).context w).holdings
    have hg := Holdings.GoesOn.shutContext (w.scanner s).context w.toHoldings
    have hgone := Holdings.gone_of_closed (Holdings.shutContext_sound hs (w.scanner s).context)
      (Holdings.shutContext_closed (hs.scanners s hv))
    rw [hh]
    exact hgone.sessions s (hg.size.symm ▸ hv) (hg.context s)

theorem Move.closes (hm : Move (F, w) (F', w')) (hs : w.Sound F) (ho : w.Orderly)
    (hv : s.index < w.scanners.size) (hopen : (w.scanner s).custodian.closed = false) :
    (w'.scanner s).custodian.closed = true ↔ Closes s (F, w) (F', w') := by
  refine ⟨fun hclosed => ?_, fun hc => hc.closed hs hv⟩
  cases hm with
  | still hw =>
    rw [hw.holdings, hopen] at hclosed
    cases hclosed
  | change hc hw => exact hc.closes hs ho hv hopen (hw.holdings ▸ hclosed) hw.holdings
  | mark =>
    rw [show (World.mark w).scanner s = w.scanner s from rfl, hopen] at hclosed
    cases hclosed

/-- A session that closes in the course of a run does so at one moment of it. -/
theorem Moves.closes (hm : Moves F w F' w') (hs : w.Sound F) (ho : w.Orderly)
    (hv : s.index < w.scanners.size) (hopen : (w.scanner s).custodian.closed = false)
    (hclosed : (w'.scanner s).custodian.closed = true) : ClosesWithin s (F, w) (F', w') := by
  have hrun {p : Multiset Reference × World} (hp : Relation.ReflTransGen Move (F, w) p)
      (hclosed : (p.2.scanner s).custodian.closed = true) : ClosesWithin s (F, w) p := by
    -- From the end of the run backwards: closed before the last move already, or that move closes it.
    induction hp with
    | refl =>
      rw [hopen] at hclosed
      cases hclosed
    | @tail p q hbefore hmove ih =>
      cases hx : (p.2.scanner s).custodian.closed with
      | true =>
        obtain ⟨p₁, p₂, h₁, hopen₁, hmove₁, hcloses₁, h₂⟩ := ih hx
        exact ⟨p₁, p₂, h₁, hopen₁, hmove₁, hcloses₁, h₂.tail hmove⟩
      | false =>
        have hsound : p.2.Sound p.1 := (Moves.sound_later hbefore hs).1
        obtain ⟨horderly, hlater⟩ := Moves.orderly_later hbefore hs ho
        have hcloses := (Move.closes hmove hsound horderly
          (Nat.lt_of_lt_of_le hv hlater.size) hx).1 hclosed
        exact ⟨p, q, hbefore, hx, hmove, hcloses, .refl⟩
  exact hrun hm hclosed

end

end ProxySession
