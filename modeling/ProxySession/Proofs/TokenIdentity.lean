import ProxySession.Proofs.Identity

/-!
# Tokens are object identity

Where symbols and signatures are identified by tokens, the token of an object is its place among the
objects that were seen so far, whichever of the two kinds it was resolved as. Proxies of one kind are the
same if and only if they were handed out for the same object, also after the context has closed.
-/

namespace ProxySession

open Effect

/-! ## Places in the order of first sight -/

/-- The places of elements are what they are first, second and so on. -/
theorem eraseDups_places {α β : Type} [DecidableEq α] [DecidableEq β] {g : Nat → β}
    (hg : Function.Injective g) (as : List α) :
    (as.map fun a => g (as.eraseDups.idxOf a)).eraseDups = (List.range as.eraseDups.length).map g := by
  induction as using List.reverseRecOn with
  | nil => rfl
  | append_singleton as a ih =>
    have hold : (as.map fun b => g ((as ++ [a]).eraseDups.idxOf b)) =
        as.map fun b => g (as.eraseDups.idxOf b) :=
      List.map_congr_left fun b hb => by rw [idxOf_eraseDups_concat hb]
    have hmem (b : β) : b ∈ as.map (fun b => g (as.eraseDups.idxOf b)) ↔
        b ∈ (List.range as.eraseDups.length).map g := by
      rw [← List.mem_eraseDups, ih]
    rw [List.map_append, hold, List.map_singleton, eraseDups_concat, ih]
    by_cases ha : a ∈ as
    · have hplace : as.eraseDups.idxOf a < as.eraseDups.length :=
        List.idxOf_lt_length_of_mem (List.mem_eraseDups.2 ha)
      have hin := (hmem _).2 (List.mem_map_of_mem (f := g) (List.mem_range.2 hplace))
      rw [eraseDups_concat as a, if_pos ha, if_pos hin]
    · have hlast : (as ++ [a]).eraseDups.idxOf a = as.eraseDups.length := by
        rw [eraseDups_concat, if_neg ha, List.idxOf_append_of_notMem (by rwa [List.mem_eraseDups])]
        simp
      have hout : g as.eraseDups.length ∉ as.map fun b => g (as.eraseDups.idxOf b) := by
        rw [hmem, List.mem_map_of_injective hg, List.mem_range]
        exact Nat.lt_irrefl _
      rw [hlast, if_neg hout, eraseDups_concat, if_neg ha, List.length_append,
        List.length_singleton, List.range_succ, List.map_append, List.map_singleton]

/-! ## Keys -/

namespace Holdings

variable {h h' : Holdings} {c : ContextId}

theorem mem_sighted {ρ : Resolution} (hρ : ρ ∈ h.tokened c) : ρ.object ∈ h.sighted c :=
  List.mem_eraseDups.2 (List.mem_map_of_mem hρ)

/-- Up to 2 ^ 53 objects, the key of an object is its place, counted from 1. -/
theorem Keyed.toInt_key (hk : h.Keyed) (hn : (h.sighted c).length ≤ 2 ^ 53) {ρ : Resolution}
    (hρ : ρ ∈ h.tokened c) : ρ.key.toInt = ((h.sighted c).idxOf ρ.object : Int) + 1 := by
  have hplace : (h.sighted c).idxOf ρ.object < (h.sighted c).length :=
    List.idxOf_lt_length_of_mem (mem_sighted hρ)
  have hkey := hk c ρ hρ
  have htoken : tokenOf ((h.sighted c).idxOf ρ.object) = (h.sighted c).idxOf ρ.object + 1 :=
    Nat.min_eq_left (by omega)
  rw [hkey, htoken]
  rfl

theorem Keyed.key_eq_iff (hk : h.Keyed) (hn : (h.sighted c).length ≤ 2 ^ 53) {ρ σ : Resolution}
    (hρ : ρ ∈ h.tokened c) (hσ : σ ∈ h.tokened c) : ρ.key = σ.key ↔ ρ.object = σ.object := by
  rw [← Int64.toInt_inj, hk.toInt_key hn hρ, hk.toInt_key hn hσ, ← List.idxOf_inj (mem_sighted hρ)]
  omega

/-- The keys in use are 1, 2, 3 and so on, in the order of first sight. -/
theorem Keyed.keys_in_order (hk : h.Keyed) (hn : (h.sighted c).length ≤ 2 ^ 53) :
    ((h.tokened c).map fun ρ => ρ.key.toInt).eraseDups =
      (List.range (h.sighted c).length).map fun (i : Nat) => (i : Int) + 1 := by
  have hkeys : ((h.tokened c).map fun ρ => ρ.key.toInt) =
      ((h.tokened c).map Resolution.object).map fun r => ((h.sighted c).idxOf r : Int) + 1 := by
    rw [List.map_map]
    exact List.map_congr_left fun ρ hρ => hk.toInt_key hn hρ
  rw [hkeys]
  exact eraseDups_places (g := fun (i : Nat) => (i : Int) + 1) (fun i j hij => by simpa using hij) _

/-! ## Handles -/

/-- Proxies of one kind, context and key have one handle. -/
structure Agreed (h : Holdings) : Prop where
  keys : ∀ ρ ∈ h.resolutions, ρ.proxy.key = ρ.key
  handles : ∀ ρ ∈ h.resolutions, ∀ σ ∈ h.resolutions, ρ.kind = σ.kind →
    ρ.proxy.context = σ.proxy.context → ρ.key = σ.key → ρ.proxy.handle = σ.proxy.handle

theorem Sound.proxy {F : Multiset Reference} (hs : Sound F h) {ρ : Resolution}
    (hρ : ρ ∈ h.resolutions) (ho : (h.context ρ.proxy.context).custodian.closed = false) :
    ρ.proxy.key = ρ.key ∧ ((h.context ρ.proxy.context).identities ρ.kind).get? ρ.key =
      some ρ.proxy.handle :=
  (hs.alive _ (hs.resolutions ρ hρ) ho).keeps.proxies ρ
    (List.mem_filter.2 ⟨Array.mem_toList_iff.2 hρ, by simp⟩)

/-- The entries of an open context decide; what was resolved in a closed one stays as it was. -/
theorem Agreed.later {F' : Multiset Reference} (ha : h.Agreed) (hs : Sound F' h')
    (hnew : ∀ ρ ∈ h'.resolutions, ρ ∈ h.resolutions ∨
      (h'.context ρ.proxy.context).custodian.closed = false) : h'.Agreed := by
  refine ⟨fun ρ hρ => ?_, fun ρ hρ σ hσ hkind hctx hkey => ?_⟩
  · rcases hnew ρ hρ with hold | ho
    · exact ha.keys ρ hold
    · exact (hs.proxy hρ ho).1
  · cases ho : (h'.context ρ.proxy.context).custodian.closed with
    | false =>
      have hρentry := (hs.proxy hρ ho).2
      have hσentry := (hs.proxy hσ (hctx ▸ ho)).2
      have hmap := congrArg (h'.context ρ.proxy.context).identities hkind
      rw [← hctx, ← hmap, ← hkey, hρentry] at hσentry
      exact Option.some.inj hσentry
    | true =>
      -- A closed context resolves nothing, so neither of the two is new.
      have hold (τ : Resolution) (hτ : τ ∈ h'.resolutions)
          (hτc : τ.proxy.context = ρ.proxy.context) : τ ∈ h.resolutions := by
        refine (hnew τ hτ).resolve_right fun hopen => ?_
        rw [hτc, ho] at hopen
        cases hopen
      exact ha.handles ρ (hold ρ hρ rfl) σ (hold σ hσ hctx.symm) hkind hctx hkey

/-! ### Moves -/

theorem shutScanners_resolutions (ss : List ScannerId) (h : Holdings) :
    (h.shutScanners ss).resolutions = h.resolutions := by
  induction ss generalizing h with
  | nil => rfl
  | cons s rest ih => exact ih (h.shutScanner s)

theorem shutContext_resolutions (c : ContextId) (h : Holdings) :
    (h.shutContext c).resolutions = h.resolutions := by
  rw [shutContext]
  split
  · rfl
  · exact shutScanners_resolutions _ h

theorem giveContext_resolutions (c : ContextId) (h : Holdings) :
    (h.giveContext c).resolutions = h.resolutions := by
  rw [giveContext_eq]
  split
  · exact shutContext_resolutions c _
  · rfl

theorem giveBack_resolutions (r : Reference) (h : Holdings) :
    (h.giveBack r).resolutions = h.resolutions := by
  cases r with
  | list l =>
    rw [giveBack, giveList_eq]
    split
    · exact (releaseList_same l _).2.2.2.2
    · rfl
  | context c => exact giveContext_resolutions c h
  | scanner s =>
    rw [giveBack, giveScanner_eq]
    split
    · exact giveContext_resolutions _ _
    · rfl

end Holdings

theorem Change.agreed {F F' : Multiset Reference} {h h' : Holdings} (hc : Change F h F' h')
    (hs : Holdings.Sound F h) (ha : h.Agreed) : h'.Agreed := by
  have hs' := hc.sound hs
  have hsame (hr : h'.resolutions = h.resolutions) : h'.Agreed :=
    ha.later hs' fun ρ hρ => .inl (hr ▸ hρ)
  cases hc with
  | @hit _ _ c _ _ _ r he =>
    refine ha.later hs' fun ρ hρ => ?_
    rcases Array.mem_push.1 hρ with hρ | rfl
    · exact .inl hρ
    · exact .inr (Holdings.open_of_entry hs he).2
  | @miss _ _ c k key r hc ho hn =>
    refine ha.later hs' fun ρ hρ => ?_
    rcases Array.mem_push.1 hρ with hρ | rfl
    · exact .inl hρ
    · exact .inr ((Holdings.SameStanding.enroll c k r key h).closed c |>.trans ho)
  | drop r => exact hsame (h.giveBack_resolutions r)
  | @free _ _ l owned h1 ho hd =>
    obtain ⟨lists, he, _⟩ := Holdings.giveListOwning_eq owned l h
    rw [he] at hsame ⊢
    exact hsame (h.giveBack_resolutions (.list l))
  | shutContext c => exact hsame (h.shutContext_resolutions c)
  | @hold _ _ r hr => exact hsame (by cases r <;> rfl)
  | _ => exact hsame rfl

theorem Moves.agreed {F F' : Multiset Reference} {w w' : World} (hm : Moves F w F' w')
    (hs : w.Sound F) (ha : w.Agreed) : w'.Agreed :=
  hm.preserves_sound (P := Holdings.Agreed) hs ha fun hc hsound hagreed => hc.agreed hsound hagreed

/-! ## Sessions -/

namespace Session

variable {engine : Engine}

theorem Reached.agreed {heap : Heap} {h : Holdings} (hr : Reached heap h) : h.Agreed := by
  obtain ⟨F, w, hm, rfl⟩ := hr
  refine hm.agreed Holdings.empty_sound ⟨fun ρ hρ => ?_, fun ρ hρ => ?_⟩
  · exact absurd hρ (Array.not_mem_empty ρ)
  · exact absurd hρ (Array.not_mem_empty ρ)

theorem report_tokened (he : engine.Sound) {x : Operation Shown} (hx : x.Neutral [])
    (context : Option String) {w : World} (ht : w.Tokened) :
    (report engine x context w).2.Tokened := by
  have hclear : World.Tokened { w with crossings := #[], events := #[] } :=
    ht.tame (.refl _) (.refl _) rfl rfl
  exact (hx engine he 0 _ (List.nil_subset _)).tokened hclear

theorem runScripts_tokened (he : engine.Sound) : (scripts : List Script) → {w : World} →
    w.Tokened → (runScripts engine scripts w).2.Tokened
  | [], _, ht => ht
  | s :: rest, _, ht => runScripts_tokened he rest (report_tokened he s.run_neutral none ht)

theorem runSteps_tokened (he : engine.Sound) : (steps : List Step) → {w : World} →
    w.Tokened → (runSteps engine steps w).2.Tokened
  | [], _, ht => ht
  | .mk command context store :: rest, _, ht =>
    runSteps_tokened he rest
      (report_tokened he (Step.run_neutral (.mk command context store)) (some context) ht)

variable (fuel : Nat) (heap : Heap) (scripts : List Script) (steps : List Step)

theorem moments_keyed : ∀ h ∈ moments fuel heap scripts steps, h.Keyed := by
  have he := Engine.ofFuel_sound fuel stackSize
  have ht : (last fuel heap scripts steps).Tokened :=
    runSteps_tokened he steps (runScripts_tokened he scripts (World.ofHeap_tokened heap))
  exact List.forall_mem_cons.2 ⟨ht.keyed, ht.past⟩

/-- A resolution that succeeds goes on record, and nothing goes off it. Where a context identifies symbols
and signatures by tokens, and has seen no more objects than an integer of 53 bits counts, two of its proxies
have one token if and only if they were handed out for one object, whatever their kinds are; two of one kind
are the same if and only if they were handed out for one object. The tokens in use are 1, 2, 3 and so on,
in the order of first sight. -/
theorem tokens_identify :
    (∀ (n room : Nat) (c : ContextId) (k : ProxyKind) (v : Value) (w w' : World) (p : Proxy k),
      c.index < w.contexts.size → c.resolve k v (Engine.ofFuel n room) w = (.ok p, w') →
        ∃ r, v = .object r ∧ p.context = c ∧ w'.resolutions.back? = some ⟨k, r, p.key, p⟩) ∧
    ((moments fuel heap scripts steps).Pairwise fun h' h =>
      h.resolutions.toList <+: h'.resolutions.toList) ∧
    ∀ h ∈ moments fuel heap scripts steps, ∀ c : ContextId,
      (h.context c).rules.symbolIdentity = .objectToken →
      (h.context c).rules.signatureIdentity = .objectToken → (h.sighted c).length ≤ 2 ^ 53 →
        (∀ ρ, ρ ∈ h.tokened c ↔ ρ ∈ h.resolutions ∧ ρ.proxy.context = c ∧
          (ρ.kind = .symbol ∨ ρ.kind = .signature)) ∧
        (∀ ρ ∈ h.tokened c, ∀ σ ∈ h.tokened c,
          (ρ.proxy.key = σ.proxy.key ↔ ρ.object = σ.object) ∧
          (ρ.kind = σ.kind →
            (Item.same (.proxy ρ.proxy) (.proxy σ.proxy) = true ↔ ρ.object = σ.object))) ∧
        (∀ ρ ∈ h.tokened c, ρ.proxy.key.toInt = ((h.sighted c).idxOf ρ.object : Int) + 1) ∧
        ((h.tokened c).map fun ρ => ρ.proxy.key.toInt).eraseDups =
          (List.range (h.sighted c).length).map fun (i : Nat) => (i : Int) + 1 := by
  refine ⟨fun n room c k v w w' p hv hrun => ?_, moments_lead.imp fun hl => ?_,
    fun h hh c hsymbol hsignature hn => ?_⟩
  · obtain ⟨r, key, w₁, hr, _, hc, hkey, hrecord, _⟩ := ContextId.resolve_lookedUp hv hrun
    refine ⟨r, hr, hc, ?_⟩
    rw [hrecord, Array.back?_push, hkey]
  · obtain ⟨new, hnew, _⟩ := hl.later.resolutions
    exact hnew ▸ List.prefix_append _ _
  · have hk := moments_keyed fuel heap scripts steps h hh
    have ha := (moments_reached h hh).agreed
    have hkey {ρ : Resolution} (hρ : ρ ∈ h.tokened c) : ρ.proxy.key = ρ.key :=
      ha.keys ρ (Holdings.mem_tokened.1 hρ).1
    have htokens (k : ProxyKind) :
        (h.context c).rules.tokens k = true ↔ k = .symbol ∨ k = .signature := by
      cases k <;> simp [IdentityRules.tokens, hsymbol, hsignature]
    refine ⟨fun ρ => ?_, fun ρ hρ σ hσ => ⟨?_, fun hkind => ?_⟩, fun ρ hρ => ?_, ?_⟩
    · rw [Holdings.mem_tokened, htokens]
    · rw [hkey hρ, hkey hσ]
      exact hk.key_eq_iff hn hρ hσ
    · obtain ⟨hρr, hρc, _⟩ := Holdings.mem_tokened.1 hρ
      obtain ⟨hσr, hσc, _⟩ := Holdings.mem_tokened.1 hσ
      have hctx : ρ.proxy.context = σ.proxy.context := hρc.trans hσc.symm
      rw [same_iff hkind, hkey hρ, hkey hσ, ← hk.key_eq_iff hn hρ hσ]
      exact ⟨fun hsame => hsame.2.1, fun heq =>
        ⟨hctx, heq, ha.handles ρ hρr σ hσr hkind hctx heq⟩⟩
    · rw [hkey hρ]
      exact hk.toInt_key hn hρ
    · rw [List.map_congr_left fun ρ hρ => congrArg Int64.toInt (hkey hρ)]
      exact hk.keys_in_order hn

/-- Opens a context over the sample heap and resolves three objects, two of them as a symbol and as a
signature. -/
def tokenSteps : List Step :=
  [.mk (.open (.value (.object ⟨5⟩)) {}) "cx" (some "cx"),
    .mk (.resolve .symbol (.value (.object ⟨6⟩))) "cx" (some "a"),
    .mk (.resolve .signature (.value (.object ⟨4⟩))) "cx" (some "b"),
    .mk (.resolve .symbol (.value (.object ⟨4⟩))) "cx" (some "c"),
    .mk (.resolve .signature (.value (.object ⟨6⟩))) "cx" (some "d"),
    .mk (.resolve .symbol (.value (.object ⟨7⟩))) "cx" (some "e")]

/-- In the sample session the tokens are 1, 2, 2, 1 and 3. -/
theorem tokens_identify_sample :
    (∃ w' p, ContextId.resolve ⟨0⟩ .symbol (.object ⟨6⟩) (Engine.ofFuel 2 stackSize)
        (last 3 sampleHeap [] (tokenSteps.take 1)) = (.ok p, w') ∧
      w'.resolutions.back? = some ⟨.symbol, ⟨6⟩, p.key, p⟩) ∧
    ∃ h ∈ moments 3 sampleHeap [] tokenSteps,
      (h.tokened ⟨0⟩).map (fun ρ => ρ.object.index) = [6, 4, 4, 6, 7] ∧
      ((h.tokened ⟨0⟩).map fun ρ => ρ.proxy.key.toInt).eraseDups = [1, 2, 3] ∧
      ∃ ρ ∈ h.tokened ⟨0⟩, ∃ σ ∈ h.tokened ⟨0⟩, ρ.kind = .signature ∧ σ.kind = .symbol ∧
        ρ.object = σ.object ∧ ρ.proxy.key = σ.proxy.key := by
  obtain ⟨hresolve, _, hmoments⟩ := tokens_identify 3 sampleHeap [] tokenSteps
  constructor
  · have hv : (⟨0⟩ : ContextId).index < (last 3 sampleHeap [] (tokenSteps.take 1)).contexts.size := by
      decide +kernel
    have hok : (ContextId.resolve ⟨0⟩ .symbol (.object ⟨6⟩) (Engine.ofFuel 2 stackSize)
        (last 3 sampleHeap [] (tokenSteps.take 1))).1.toOption = some ⟨⟨0⟩, 1, ⟨5⟩⟩ := by
      decide +kernel
    have hrun := run_of_toOption hok
    obtain ⟨r, hr, _, hback⟩ := hresolve 2 stackSize ⟨0⟩ .symbol (.object ⟨6⟩) _ _ _ hv hrun
    cases hr
    exact ⟨_, _, hrun, hback⟩
  · let h := (last 3 sampleHeap [] tokenSteps).toHoldings
    have hh : h ∈ moments 3 sampleHeap [] tokenSteps := List.mem_cons_self
    have hrules : (h.context ⟨0⟩).rules.symbolIdentity = .objectToken ∧
        (h.context ⟨0⟩).rules.signatureIdentity = .objectToken ∧
        (h.sighted ⟨0⟩).length = 3 ∧
        (h.tokened ⟨0⟩).map (fun ρ => ρ.object.index) = [6, 4, 4, 6, 7] ∧
        ∃ ρ ∈ h.tokened ⟨0⟩, ∃ σ ∈ h.tokened ⟨0⟩, ρ.kind = .signature ∧ σ.kind = .symbol ∧
          ρ.object = σ.object := by
      decide +kernel
    obtain ⟨hsymbol, hsignature, hlength, hobjects, ρ, hρ, σ, hσ, hρk, hσk, hsame⟩ := hrules
    obtain ⟨_, hiff, _, hkeys⟩ := hmoments h hh ⟨0⟩ hsymbol hsignature (by omega)
    rw [hlength] at hkeys
    exact ⟨h, hh, hobjects, hkeys, ρ, hρ, σ, hσ, hρk, hσk, hsame, (hiff ρ hρ σ hσ).1.2 hsame⟩

end Session

end ProxySession
