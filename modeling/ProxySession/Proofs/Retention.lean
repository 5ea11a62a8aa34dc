import ProxySession.Proofs.EffectProgress
import ProxySession.Session.Resolve

/-!
# Retaining and resolving

A context that is closed retains nothing. What an open one retains gets the next handle; if it is
retained for a key without an entry, the entry is that handle.
-/

namespace ProxySession

open Effect

namespace Context

@[simp] theorem identities_setIdentities (cx : Context) (k l : ProxyKind)
    (map : IdentityMap HandleId) :
    (cx.setIdentities k map).identities l = if k = l then map else cx.identities l := by
  cases k <;> cases l <;> rfl

@[simp] theorem setIdentities_custodian (cx : Context) (k : ProxyKind)
    (map : IdentityMap HandleId) : (cx.setIdentities k map).custodian = cx.custodian := by
  cases k <;> rfl

@[simp] theorem setIdentities_references (cx : Context) (k : ProxyKind)
    (map : IdentityMap HandleId) : (cx.setIdentities k map).references = cx.references := by
  cases k <;> rfl

end Context

namespace IdentityMap

theorem offer_of_get? {α : Type} {m : IdentityMap α} {key : Int64} {a : α} (h : m.get? key = none) :
    m.offer key a = (a, { m with entries := m.entries ++ [(key, a)] }) := by
  rw [offer, h]

end IdentityMap

namespace ContextId

variable {c : ContextId} {w : World}

theorem retain_of_closed (v : Value) (E : Engine) (h : (w.context c).custodian.closed = true) :
    c.retain v E w = (.error (.failed (.lifetime
      (.retainAfterClose (w.context c).custodian.name))), w) := by
  have hr : (w.context c).custodian.retainHandle v =
      .error (.retainAfterClose (w.context c).custodian.name) := if_pos h
  simp only [retain, bind_eq, world, hr]
  rfl

theorem retain_of_open (v : Value) (E : Engine) (h : (w.context c).custodian.closed = false) :
    ∃ w', c.retain v E w = (.ok (w.nextHandle c), w') ∧
      w.Turns w' (w.toHoldings.retain c v) := by
  have hr : (w.context c).custodian.retainHandle v = .ok (w.nextHandle c,
      { (w.context c).custodian with slots := (w.context c).custodian.slots.push (some v) }) := by
    rw [Custodian.retainHandle, if_neg (by simp [h])]
    rfl
  simp only [retain, bind_eq, world, hr]
  refine ⟨_, rfl, ⟨?_, rfl⟩, .holdings w _⟩
  exact Holdings.modifyContext_congr rfl

/-! ## Entries -/

variable {k : ProxyKind} {key : Int64}

theorem intern_present {handle : HandleId} (create : Operation HandleId) (E : Engine)
    (h : ((w.context c).identities k).get? key = some handle) :
    (MapLens.ofContext c k).intern key create E w =
      (.ok handle, (MapLens.ofContext c k).logLookup "proxy cache hit" key w) := by
  have hl : ((MapLens.ofContext c k).load w).get? key = some handle := h
  simp only [MapLens.intern, bind_eq, world, hl]
  rfl

theorem intern_of_closed (v : Value) (E : Engine)
    (hn : ((w.context c).identities k).get? key = none)
    (h : (w.context c).custodian.closed = true) :
    (MapLens.ofContext c k).intern key (c.retain v) E w =
      (.error (.failed (.lifetime (.retainAfterClose (w.context c).custodian.name))), w) := by
  have hl : ((MapLens.ofContext c k).load w).get? key = none := hn
  simp only [MapLens.intern, bind_eq, world, hl, retain_of_closed v E h]

theorem intern_absent (v : Value) (E : Engine)
    (hn : ((w.context c).identities k).get? key = none)
    (h : (w.context c).custodian.closed = false) :
    ∃ w', (MapLens.ofContext c k).intern key (c.retain v) E w = (.ok (w.nextHandle c), w') ∧
      w.Turns w' ((w.toHoldings.retain c v).addEntry c k key (w.nextHandle c)) := by
  obtain ⟨w₁, hr, hw⟩ := retain_of_open v E h
  have hl : ((MapLens.ofContext c k).load w).get? key = none := hn
  have hm : (w₁.context c).identities k = (w.context c).identities k := by
    rw [hw.holdings, Holdings.retain, Holdings.context_modifyContext]
    split <;> cases k <;> rfl
  have ho : ((w₁.context c).identities k).offer key (w.nextHandle c) =
      (w.nextHandle c, { (w.context c).identities k with
        entries := ((w.context c).identities k).entries ++ [(key, w.nextHandle c)] }) := by
    rw [hm]
    exact IdentityMap.offer_of_get? hn
  have hmap : w₁.toHoldings.addEntry c k key (w.nextHandle c) =
      w₁.toHoldings.modifyContext c fun cx =>
        cx.setIdentities k (((w₁.context c).identities k).offer key (w.nextHandle c)).2 := by
    apply Holdings.modifyContext_congr
    rw [ho, ← hm]
  simp only [MapLens.intern, bind_eq, world, hl, hr, change]
  refine ⟨_, Prod.ext (congrArg Except.ok (congrArg Prod.fst ho)) rfl, ⟨?_, hw.history⟩,
    (hw.tacit.trans (.log rfl _)).trans (.holdings _ _)⟩
  rw [← hw.holdings, hmap]
  rfl

/-! ## Resolutions -/

/-- What a resolution does once it knows the key. -/
def settle (c : ContextId) (k : ProxyKind) (r : ObjectRef) (key : Int64) : Operation (Proxy k) := do
  let handle ← (MapLens.ofContext c k).intern key (c.retain (.object r))
  let proxy : Proxy k := ⟨c, key, handle⟩
  change (World.recordResolution ⟨k, r, key, proxy⟩)
  pure proxy

theorem resolve_object (c : ContextId) (k : ProxyKind) (r : ObjectRef) :
    c.resolve k (.object r) = c.identityKey k r >>= c.settle k r := rfl

theorem resolve_of_ne_object {v : Value} {E : Engine} (h : ∀ r, v ≠ .object r) :
    c.resolve k v E w = (.error (.failed (.shapeMismatch k.name (w.heap.typeName v))), w) := by
  cases v with
  | object r => exact absurd rfl (h r)
  | _ => rfl

theorem settle_present {r : ObjectRef} {handle : HandleId} (E : Engine)
    (h : ((w.context c).identities k).get? key = some handle) :
    ∃ w', c.settle k r key E w = (.ok ⟨c, key, handle⟩, w') ∧
      w.Turns w' (w.toHoldings.record ⟨k, r, key, ⟨c, key, handle⟩⟩) := by
  simp only [settle, bind_eq, intern_present _ E h]
  exact ⟨_, rfl, ⟨rfl, rfl⟩, (World.Tacit.log rfl w).trans (.holdings _ _)⟩

theorem settle_absent {r : ObjectRef} (E : Engine)
    (hn : ((w.context c).identities k).get? key = none)
    (h : (w.context c).custodian.closed = false) :
    ∃ w', c.settle k r key E w = (.ok ⟨c, key, w.nextHandle c⟩, w') ∧
      w.Turns w' (w.toHoldings.enroll c k r key) := by
  obtain ⟨w₁, hr, hw⟩ := intern_absent (.object r) E hn h
  simp only [settle, bind_eq, hr]
  refine ⟨_, rfl, ⟨?_, hw.history⟩, hw.tacit.trans (.holdings _ _)⟩
  rw [Holdings.enroll, ← hw.holdings]
  rfl

theorem settle_of_closed {r : ObjectRef} (E : Engine)
    (hn : ((w.context c).identities k).get? key = none)
    (h : (w.context c).custodian.closed = true) :
    c.settle k r key E w = (.error (.failed (.lifetime
      (.retainAfterClose (w.context c).custodian.name))), w) := by
  simp only [settle, bind_eq, intern_of_closed _ E hn h]

/-- All that can come of a known key: its entry is used, or the context is closed and has none, or the object
is retained for a new one. -/
theorem settle_cases (c : ContextId) (k : ProxyKind) (r : ObjectRef) (key : Int64) (E : Engine) (w : World) :
    (∃ handle w', ((w.context c).identities k).get? key = some handle ∧
      c.settle k r key E w = (.ok ⟨c, key, handle⟩, w') ∧
        w.Turns w' (w.toHoldings.record ⟨k, r, key, ⟨c, key, handle⟩⟩)) ∨
    (((w.context c).identities k).get? key = none ∧ (w.context c).custodian.closed = true ∧
      c.settle k r key E w =
        (.error (.failed (.lifetime (.retainAfterClose (w.context c).custodian.name))), w)) ∨
    ∃ w', ((w.context c).identities k).get? key = none ∧ (w.context c).custodian.closed = false ∧
      c.settle k r key E w = (.ok ⟨c, key, w.nextHandle c⟩, w') ∧
        w.Turns w' (w.toHoldings.enroll c k r key) := by
  cases hg : ((w.context c).identities k).get? key with
  | some handle =>
    obtain ⟨w', hr, hw⟩ := settle_present (r := r) E hg
    exact .inl ⟨handle, w', rfl, hr, hw⟩
  | none =>
    cases ho : (w.context c).custodian.closed with
    | true => exact .inr (.inl ⟨rfl, rfl, settle_of_closed E hg ho⟩)
    | false =>
      obtain ⟨w', hr, hw⟩ := settle_absent (r := r) E hg ho
      exact .inr (.inr ⟨w', rfl, rfl, hr, hw⟩)

/-- The context keeps what a running operation needs of it, whatever the key is. -/
theorem settle_headway {F : Multiset Reference} (hc : .context c ∈ F) (r : ObjectRef) (E : Engine) :
    Headway F w F (c.settle k r key E w).2 := by
  obtain ⟨handle, w', hg, hr, hw⟩ | ⟨_, _, hr⟩ | ⟨w', hg, ho, hr, hw⟩ := settle_cases c k r key E w <;> rw [hr]
  · exact .change (.hit r hg) hw (.of_contexts rfl rfl) (.refl _)
  · exact Progress.refl.toHeadway
  · have hh : w.toHoldings.Tame ((w.toHoldings.retain c (.object r)).addEntry c k key
      (w.nextHandle c)) := .enrolled c k r key _
    exact .change (.miss r hc ho hg) hw (.enroll c k r key _) hh.untokened

/-- A key that is no token leaves the tokens in order. -/
theorem settle_progress {F : Multiset Reference} (hc : .context c ∈ F)
    (hk : (w.context c).rules.tokens k = false) (r : ObjectRef) (E : Engine) :
    Progress F w F (c.settle k r key E w).2 := by
  refine ⟨settle_headway hc r E, fun ht => ?_⟩
  obtain ⟨handle, w', _, hr, hw⟩ | ⟨_, _, hr⟩ | ⟨w', _, _, hr, hw⟩ := settle_cases c k r key E w <;> rw [hr]
  · exact ht.indoors hw.tacit.indoors hw.toBecomes (.record _ hk)
  · exact ht
  · have hh : w.toHoldings.Tame ((w.toHoldings.retain c (.object r)).addEntry c k key
      (w.nextHandle c)) := .enrolled c k r key _
    exact ht.indoors hw.tacit.indoors hw.toBecomes (hh.trans (.record _ (hh.untokened c k hk)))

/-- So does the token of the object. -/
theorem settle_tokened {w₀ : World} (ht : w₀.Tokened) {r : ObjectRef}
    (hw₀ : w = (w₀.numbered c.index r).settled c) (hv : c.index < w₀.contexts.size)
    (ho : (w.context c).custodian.closed = false) (hk : (w₀.context c).rules.tokens k = true)
    (hkey : key.toInt = min ((w₀.numberings.getD c.index .empty).number r).1 (2 ^ 53))
    (E : Engine) : (c.settle k r key E w).2.Tokened := by
  have hsettled : w₀.toHoldings.Tame w.toHoldings := by
    rw [hw₀]
    exact .modifyContext c w₀.toHoldings (.of_slots rfl rfl rfl rfl)
  have hheap {w' : World} (hi : w.Indoors w') : w₀.heap.Evolves w'.heap := by
    rw [← hi.rest, hw₀]
    exact .refl _
  have hnumberings {w' : World} (hi : w.Indoors w') :
      w'.numberings = (w₀.numbered c.index r).numberings := by
    rw [← hi.rest, hw₀]
    rfl
  have hhistory {w' : World} {h : Holdings} (hb : w.Becomes w' h) : w'.history = w₀.history := by
    rw [hb.history, hw₀]
    rfl
  obtain ⟨handle, w', _, hr, hw⟩ | ⟨_, hc, _⟩ | ⟨w', _, _, hr, hw⟩ := settle_cases c k r key E w
  · rw [hr]
    exact ht.resolved hv hk hkey hsettled hw.holdings (hheap hw.tacit.indoors)
      (hnumberings hw.tacit.indoors) (hhistory hw.toBecomes)
  · rw [ho] at hc
    cases hc
  · rw [hr]
    exact ht.resolved hv hk hkey (hsettled.trans (.enrolled c k r key _)) hw.holdings
      (hheap hw.tacit.indoors) (hnumberings hw.tacit.indoors) (hhistory hw.toBecomes)

end ContextId

end ProxySession
