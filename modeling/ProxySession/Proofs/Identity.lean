import ProxySession.Proofs.Moments

/-!
# One proxy for each identity key

Two resolutions of one kind in an open context hand out the same proxy if and only if the identity
keys that were computed for them are equal. Entries stay until the context closes. A resolution adds
an entry and retains an object exactly if its key is new when it is looked up, whatever the
computation of the key did before.
-/

namespace ProxySession

open Effect

/-! ## Look-ups -/

/-- What a look-up makes of what was held before it: nothing if the key has an entry, or else one
entry of this kind and one retained object, in this context alone. -/
def Holdings.LookedUp (c : ContextId) (k : ProxyKind) (r : ObjectRef) (key : Int64)
    (handle : HandleId) (before after : Holdings) : Prop :=
  match ((before.context c).identities k).get? key with
  | some present => handle = present ∧ after.contexts = before.contexts
  | none =>
    handle = before.nextHandle c ∧
      ((after.context c).identities k).entries =
        ((before.context c).identities k).entries ++ [(key, handle)] ∧
      (∀ l, k ≠ l → (after.context c).identities l = (before.context c).identities l) ∧
      (after.context c).custodian.slots =
        (before.context c).custodian.slots.push (some (.object r)) ∧
      (after.context c).custodian.liveHandles = (before.context c).custodian.liveHandles + 1 ∧
      ∀ d, c ≠ d → after.context d = before.context d

theorem ContextId.settle_lookedUp {c : ContextId} {k : ProxyKind} {r : ObjectRef} {key : Int64}
    {E : Engine} {w w' : World} {p : Proxy k} (hv : c.index < w.contexts.size)
    (hrun : c.settle k r key E w = (.ok p, w')) :
    p.context = c ∧ p.key = key ∧ w'.resolutions = w.resolutions.push ⟨k, r, key, p⟩ ∧
      Holdings.LookedUp c k r key p.handle w.toHoldings w'.toHoldings := by
  -- The case of a closed context goes: there a proxy is only handed out by an entry.
  obtain ⟨_, _, hg, hr, hw⟩ | ⟨_, _, hr⟩ | ⟨_, hg, _, hr, hw⟩ := settle_cases c k r key E w <;>
    rw [hr] at hrun <;> cases hrun
  · refine ⟨rfl, rfl, by rw [hw.holdings]; rfl, ?_⟩
    rw [Holdings.LookedUp, hg, hw.holdings]
    exact ⟨rfl, rfl⟩
  · have hctx := Holdings.enroll_context k r key (h := w.toHoldings) hv
    refine ⟨rfl, rfl, by rw [hw.holdings]; rfl, ?_⟩
    rw [Holdings.LookedUp, hg, hw.holdings]
    refine ⟨rfl, ?_, fun l hl => ?_, ?_, ?_, fun d hd => ?_⟩
    · rw [hctx, if_pos rfl, Context.enrolling_identities, if_pos rfl]
      rfl
    · rw [hctx, if_pos rfl, Context.enrolling_identities, if_neg hl]
    · rw [hctx, if_pos rfl, Context.enrolling_custodian]
    · rw [hctx, if_pos rfl, Context.enrolling_custodian, Custodian.liveHandles_push]
    · rw [hctx, if_neg hd]

theorem ContextId.resolve_lookedUp {n room : Nat} {c : ContextId} {k : ProxyKind} {v : Value}
    {w w' : World} {p : Proxy k} (hv : c.index < w.contexts.size)
    (hrun : c.resolve k v (Engine.ofFuel n room) w = (.ok p, w')) :
    ∃ r key w₁, v = .object r ∧ c.identityKey k r (Engine.ofFuel n room) w = (.ok key, w₁) ∧
      p.context = c ∧ p.key = key ∧ w'.resolutions = w₁.resolutions.push ⟨k, r, key, p⟩ ∧
        Holdings.LookedUp c k r key p.handle w₁.toHoldings w'.toHoldings := by
  cases v with
  | object r =>
    rw [resolve_object, bind_eq] at hrun
    have hsize := (identityKey_headway (Engine.ofFuel_sound n room) k r 0 (c := c) (w := w)).moves.size_le
    cases hkey : c.identityKey k r (Engine.ofFuel n room) w with
    | mk result w₁ =>
      rw [hkey] at hrun hsize
      cases result with
      | ok key =>
        exact ⟨r, key, w₁, rfl, hkey, settle_lookedUp (Nat.lt_of_lt_of_le hv hsize) hrun⟩
      | error stop => cases hrun
  | _ =>
    rw [resolve_of_ne_object (by simp)] at hrun
    cases hrun

/-! ## Sessions -/

theorem same_iff {ρ σ : Resolution} (hk : ρ.kind = σ.kind) :
    Item.same (.proxy ρ.proxy) (.proxy σ.proxy) = true ↔ ρ.proxy.context = σ.proxy.context ∧
      ρ.proxy.key = σ.proxy.key ∧ ρ.proxy.handle = σ.proxy.handle := by
  obtain ⟨k, r, key, ⟨c, pkey, handle⟩⟩ := ρ
  obtain ⟨k', r', key', ⟨c', pkey', handle'⟩⟩ := σ
  obtain rfl : k = k' := hk
  simp [Item.same]

namespace Session

variable (fuel : Nat) (heap : Heap) (scripts : List Script) (steps : List Step)

/-- A resolution computes the key of an object and hands out the proxy of that key. While a context
is open, two resolutions of one kind in it have the same proxy if and only if they have the same
key, and its entries stay as they are; no resolution goes off the record. -/
theorem proxies_identified :
    (∀ (n room : Nat) (c : ContextId) (k : ProxyKind) (v : Value) (w w' : World) (p : Proxy k),
      c.index < w.contexts.size → c.resolve k v (Engine.ofFuel n room) w = (.ok p, w') →
        ∃ r key w₁, v = .object r ∧ c.identityKey k r (Engine.ofFuel n room) w = (.ok key, w₁) ∧
          p.context = c ∧ p.key = key ∧ w'.resolutions = w₁.resolutions.push ⟨k, r, key, p⟩ ∧
            Holdings.LookedUp c k r key p.handle w₁.toHoldings w'.toHoldings) ∧
    (∀ h ∈ moments fuel heap scripts steps, Reached heap h) ∧
    (∀ h, Reached heap h → ∀ ρ ∈ h.resolutions, ∀ σ ∈ h.resolutions,
      ρ.kind = σ.kind → ρ.proxy.context = σ.proxy.context →
        (h.context ρ.proxy.context).custodian.closed = false →
          (Item.same (.proxy ρ.proxy) (.proxy σ.proxy) = true ↔ ρ.key = σ.key) ∧
            ρ.proxy.key = ρ.key ∧ σ.proxy.key = σ.key) ∧
    ((moments fuel heap scripts steps).Pairwise fun h' h => Leads heap h h') ∧
    ∀ h h', Leads heap h h' → h.resolutions.toList <+: h'.resolutions.toList ∧
      ∀ c k, (h'.context c).custodian.closed = false →
        ((h.context c).identities k).entries <+: ((h'.context c).identities k).entries := by
  refine ⟨fun n room c k v w w' p hv hrun => ContextId.resolve_lookedUp hv hrun,
    moments_reached, fun h hr ρ hρ σ hσ hk hc ho => ?_, moments_lead,
    fun h h' hl => ?_⟩
  · obtain ⟨F, hs⟩ := hr.sound
    have ha := hs.alive _ (hs.resolutions ρ hρ) ho
    have hmem (τ : Resolution) (hτ : τ ∈ h.resolutions)
        (hctx : τ.proxy.context = ρ.proxy.context) : τ ∈ h.resolutionsOf ρ.proxy.context :=
      List.mem_filter.2 ⟨Array.mem_toList_iff.2 hτ, by simpa using hctx⟩
    obtain ⟨hρkey, hρentry⟩ := ha.keeps.proxies ρ (hmem ρ hρ rfl)
    obtain ⟨hσkey, hσentry⟩ := ha.keeps.proxies σ (hmem σ hσ hc.symm)
    refine ⟨?_, hρkey, hσkey⟩
    rw [same_iff hk, hρkey, hσkey]
    refine ⟨fun hsame => hsame.2.1, fun hkeys => ⟨hc, hkeys, ?_⟩⟩
    have hmap := congrArg (h.context ρ.proxy.context).identities hk
    rw [← hmap, ← hkeys, hρentry] at hσentry
    exact Option.some.inj hσentry
  · refine ⟨?_, hl.later.entries⟩
    obtain ⟨new, hnew, _⟩ := hl.later.resolutions
    exact hnew ▸ List.prefix_append _ _

/-- In the sample session two objects have the number 7. The second one to be resolved gets the
proxy of the first. -/
theorem proxies_identified_sample :
    (∃ w₁ w', ContextId.resolve ⟨0⟩ .node (.object ⟨4⟩) (Engine.ofFuel 2 stackSize)
        (sampleWorld 2) = (.ok ⟨⟨0⟩, 7, ⟨5⟩⟩, w') ∧
      ContextId.identityKey ⟨0⟩ .node ⟨4⟩ (Engine.ofFuel 2 stackSize) (sampleWorld 2) =
        (.ok 7, w₁) ∧
      Holdings.LookedUp ⟨0⟩ .node ⟨4⟩ 7 ⟨5⟩ w₁.toHoldings w'.toHoldings) ∧
    ∃ h ∈ moments 3 sampleHeap [] sampleSteps, ∃ ρ ∈ h.resolutions, ∃ σ ∈ h.resolutions,
      ρ.object ≠ σ.object ∧ ρ.key = σ.key ∧
        Item.same (.proxy ρ.proxy) (.proxy σ.proxy) = true := by
  constructor
  · have hv : (⟨0⟩ : ContextId).index < (sampleWorld 2).contexts.size := by decide +kernel
    have hok : (ContextId.resolve ⟨0⟩ .node (.object ⟨4⟩) (Engine.ofFuel 2 stackSize)
        (sampleWorld 2)).1.toOption = some ⟨⟨0⟩, 7, ⟨5⟩⟩ := by decide +kernel
    have hrun := run_of_toOption hok
    obtain ⟨r, key, w₁, hr, hkey, _, he, _, hlook⟩ :=
      (proxies_identified 3 sampleHeap [] sampleSteps).1 2 stackSize ⟨0⟩ .node (.object ⟨4⟩)
        (sampleWorld 2) _ _ hv hrun
    cases hr
    cases he
    exact ⟨w₁, _, hrun, hkey, hlook⟩
  · have hm := sampleMoment_mem (i := 2) (by decide +kernel)
    have hfacts : (∀ ρ ∈ (sampleMoment 2).resolutions, ρ.proxy.context = ⟨0⟩ ∧ ρ.kind = .node ∧
        ρ.key = 7) ∧ (∃ ρ ∈ (sampleMoment 2).resolutions, ∃ σ ∈ (sampleMoment 2).resolutions,
          ρ.object ≠ σ.object) ∧ ((sampleMoment 2).context ⟨0⟩).custodian.closed = false := by
      decide +kernel
    obtain ⟨hall, ⟨ρ, hρ, σ, hσ, hne⟩, ho⟩ := hfacts
    obtain ⟨hc₀, hk₀, hkey₀⟩ := hall ρ hρ
    obtain ⟨hc₁, hk₁, hkey₁⟩ := hall σ hσ
    have hkeys := hkey₀.trans hkey₁.symm
    obtain ⟨_, hreached, hsame, _⟩ := proxies_identified 3 sampleHeap [] sampleSteps
    have hiff := hsame _ (hreached _ hm) ρ hρ σ hσ (hk₀.trans hk₁.symm) (hc₀.trans hc₁.symm)
      (by rw [hc₀, ho])
    exact ⟨_, hm, ρ, hρ, σ, hσ, hne, hkeys, hiff.1.2 hkeys⟩

end Session

end ProxySession
