import ProxySession.Proofs.Slots
import ProxySession.Proofs.Retention
import ProxySession.Session.Bootstrap

/-!
# What an open context keeps

The occupied slots of an open context are those of its first handles, of its entries and of the
lists that are alive, each once. A slot keeps what was put into it: the converted value for a list,
and for an entry the first object that was resolved under its key. The handles are numbered in 32
bits, so this holds as long as there are no more slots than that.
-/

namespace ProxySession

/-- The slots in which an identity map keeps its objects. -/
def IdentityMap.slots (m : IdentityMap HandleId) : Multiset Nat :=
  (m.entries.map fun e => e.2.index.toNat : List Nat)

/-- The first resolution under a key. -/
def firstResolution (k : ProxyKind) (key : Int64) (ρs : List Resolution) : Option Resolution :=
  ρs.find? fun ρ => ρ.kind = k ∧ ρ.key = key

namespace Context

/-- The handles that a context retains when it opens. -/
def rootHandles (cx : Context) : List HandleId :=
  [cx.program, cx.checker, cx.scannerFactory, cx.nodeId, cx.identityToken]
    ++ cx.forEachChild.toList

def rootSlots (cx : Context) : Multiset Nat :=
  (cx.rootHandles.map fun id => id.index.toNat : List Nat)

def cachedSlots (cx : Context) : Multiset Nat :=
  (cx.identities .node).slots + (cx.identities .type).slots + (cx.identities .symbol).slots
    + (cx.identities .signature).slots

/-- An open context keeps its first handles, the lists in `shares` and the objects resolved in
`ρs`, and nothing else. -/
structure Keeps (cx : Context) (shares : Multiset (Nat × Value)) (ρs : List Resolution) :
    Prop where
  balanced : cx.custodian.slots.size ≤ 2 ^ 32 →
    cx.rootSlots + cx.cachedSlots + shares.map Prod.fst = cx.custodian.occupied
  origins : cx.custodian.slots.size ≤ 2 ^ 32 →
    ∀ s ∈ shares, cx.custodian.slots[s.1]? = some (some s.2)
  entries : ∀ k key, (cx.identities k).get? key =
    (firstResolution k key ρs).map fun ρ => ρ.proxy.handle
  proxies : ∀ ρ ∈ ρs, ρ.proxy.key = ρ.key ∧
    (cx.identities ρ.kind).get? ρ.key = some ρ.proxy.handle
  objects : cx.custodian.slots.size ≤ 2 ^ 32 → ∀ k key ρ, firstResolution k key ρs = some ρ →
    cx.custodian.slots[ρ.proxy.handle.index.toNat]? = some (some (.object ρ.object))

/-- The context after an object was retained for a new entry. -/
def enrolling (cx : Context) (k : ProxyKind) (r : ObjectRef) (key : Int64) : Context :=
  let handle : HandleId := ⟨UInt32.ofNat cx.custodian.slots.size⟩
  { cx with
    custodian := { cx.custodian with
      slots := cx.custodian.slots.push (some (.object r)) } }.setIdentities k
    { cx.identities k with entries := (cx.identities k).entries ++ [(key, handle)] }

end Context

/-! ## Entries and their slots -/

namespace IdentityMap

variable {m : IdentityMap HandleId} {key : Int64} {handle : HandleId}

theorem mem_slots_of_get? (h : m.get? key = some handle) : handle.index.toNat ∈ m.slots := by
  rw [get?, List.lookup_eq_some_iff] at h
  obtain ⟨before, after, he, _⟩ := h
  rw [slots, he]
  simp

theorem slots_add (m : IdentityMap HandleId) (key : Int64) (handle : HandleId) :
    slots { m with entries := m.entries ++ [(key, handle)] } = handle.index.toNat ::ₘ m.slots := by
  simp only [slots, List.map_append, ← Multiset.coe_add]
  rw [Multiset.add_comm]
  rfl

theorem get?_add (hn : m.get? key = none) (key' : Int64) :
    get? { m with entries := m.entries ++ [(key, handle)] } key' =
      if key = key' then some handle else m.get? key' := by
  simp only [get?, List.lookup_append] at hn ⊢
  by_cases he : key = key'
  · subst he
    simp [hn]
  · have hb : (key' == key) = false := by simpa using Ne.symm he
    simp [he, hb, List.lookup_cons]

end IdentityMap

theorem Context.mem_cachedSlots {cx : Context} {k : ProxyKind} {i : Nat}
    (h : i ∈ (cx.identities k).slots) : i ∈ cx.cachedSlots := by
  simp only [cachedSlots, Multiset.mem_add]
  cases k with
  | node => exact .inl (.inl (.inl h))
  | type => exact .inl (.inl (.inr h))
  | symbol => exact .inl (.inr h)
  | signature => exact .inr h

namespace Context

/-! ## A new entry -/

theorem enrolling_custodian (cx : Context) (k : ProxyKind) (r : ObjectRef) (key : Int64) :
    (cx.enrolling k r key).custodian =
      { cx.custodian with slots := cx.custodian.slots.push (some (.object r)) } := by
  rw [enrolling, setIdentities_custodian]

theorem enrolling_identities (cx : Context) (k : ProxyKind) (r : ObjectRef) (key : Int64)
    (k' : ProxyKind) : (cx.enrolling k r key).identities k' = if k = k' then
      { cx.identities k with entries := (cx.identities k).entries ++
        [(key, ⟨UInt32.ofNat cx.custodian.slots.size⟩)] } else cx.identities k' := by
  rw [enrolling, identities_setIdentities]
  cases k' <;> rfl

theorem enrolling_rootSlots (cx : Context) (k : ProxyKind) (r : ObjectRef) (key : Int64) :
    (cx.enrolling k r key).rootSlots = cx.rootSlots := by
  cases k <;> rfl

theorem enrolling_cachedSlots (cx : Context) (k : ProxyKind) (r : ObjectRef) (key : Int64) :
    (cx.enrolling k r key).cachedSlots =
      (UInt32.ofNat cx.custodian.slots.size).toNat ::ₘ cx.cachedSlots := by
  have hs := IdentityMap.slots_add (cx.identities k) key
    ⟨UInt32.ofNat cx.custodian.slots.size⟩
  simp only [cachedSlots, enrolling_identities]
  cases k <;> simp [hs, Multiset.cons_add, Multiset.add_cons]

theorem enrolling_get? {cx : Context} {k : ProxyKind} {key : Int64} (r : ObjectRef)
    (hn : (cx.identities k).get? key = none) (k' : ProxyKind) (key' : Int64) :
    ((cx.enrolling k r key).identities k').get? key' =
      if k = k' ∧ key = key' then some ⟨UInt32.ofNat cx.custodian.slots.size⟩
      else (cx.identities k').get? key' := by
  rw [enrolling_identities]
  by_cases hk : k = k'
  · subst hk
    rw [if_pos rfl, IdentityMap.get?_add hn]
    simp
  · rw [if_neg hk, if_neg fun hc => hk hc.1]

end Context

/-! ## First resolutions -/

theorem firstResolution_append (k : ProxyKind) (key : Int64) (ρs : List Resolution)
    (ρ : Resolution) : firstResolution k key (ρs ++ [ρ]) =
      (firstResolution k key ρs).or (if ρ.kind = k ∧ ρ.key = key then some ρ else none) := by
  simp only [firstResolution, List.find?_append]
  congr 1
  by_cases h : ρ.kind = k ∧ ρ.key = key
  · simp [h]
  · simp [List.find?, h]

namespace Context.Keeps

variable {cx cx' : Context} {shares : Multiset (Nat × Value)} {ρs : List Resolution}

/-- The other parts of a context do not matter. -/
theorem congr (h : cx.Keeps shares ρs) (hs : cx'.custodian.slots = cx.custodian.slots)
    (hi : ∀ k, cx'.identities k = cx.identities k) (hr : cx'.rootHandles = cx.rootHandles) :
    cx'.Keeps shares ρs := by
  have ho : cx'.custodian.occupied = cx.custodian.occupied := by
    rw [Custodian.occupied, hs, Custodian.occupied]
  refine ⟨fun hb => ?_, fun hb => ?_, fun k key => ?_, fun ρ hρ => ?_, fun hb => ?_⟩
  · rw [hs] at hb
    rw [ho, ← h.balanced hb, rootSlots, hr, cachedSlots, hi, hi, hi, hi, rootSlots, cachedSlots]
  · rw [hs] at hb ⊢
    exact h.origins hb
  · rw [hi]
    exact h.entries k key
  · rw [hi]
    exact h.proxies ρ hρ
  · rw [hs] at hb ⊢
    exact h.objects hb

/-- What is in the slots is where it was in any larger custodian. -/
theorem getElem?_push {slots : Array (Option Value)} {v : Value} {i : Nat} {x : Option Value}
    (h : slots[i]? = some x) : (slots.push (some v))[i]? = some x := by
  have hi : i < slots.size := (Array.getElem?_eq_some_iff.1 h).1
  rwa [Array.getElem?_push, if_neg (Nat.ne_of_lt hi)]

/-- A resolution that found an entry. -/
theorem hit (h : cx.Keeps shares ρs) {c : ContextId} {k : ProxyKind} {key : Int64}
    {handle : HandleId} (r : ObjectRef) (he : (cx.identities k).get? key = some handle) :
    cx.Keeps shares (ρs ++ [⟨k, r, key, ⟨c, key, handle⟩⟩]) := by
  have hfirst (k' : ProxyKind) (key' : Int64) :
      firstResolution k' key' (ρs ++ [⟨k, r, key, ⟨c, key, handle⟩⟩]) =
        firstResolution k' key' ρs := by
    rw [firstResolution_append]
    split
    · next hk =>
      obtain ⟨rfl, rfl⟩ := hk
      have hs := h.entries k key
      rw [he] at hs
      cases hf : firstResolution k key ρs with
      | none => simp [hf] at hs
      | some ρ => rfl
    · rw [Option.or_none]
  refine ⟨h.balanced, h.origins, fun k' key' => ?_, fun ρ hρ => ?_, fun hb k' key' ρ hf => ?_⟩
  · rw [hfirst]
    exact h.entries k' key'
  · rcases List.mem_append.1 hρ with hρ | hρ
    · exact h.proxies ρ hρ
    · obtain rfl := List.mem_singleton.1 hρ
      exact ⟨rfl, he⟩
  · rw [hfirst] at hf
    exact h.objects hb k' key' ρ hf

variable {v : Value} {s : Nat × Value}

/-- The number of the next slot, as long as handles suffice. -/
theorem next_toNat (hb : (cx.custodian.slots.push (some v)).size ≤ 2 ^ 32) :
    (UInt32.ofNat cx.custodian.slots.size).toNat = cx.custodian.slots.size := by
  rw [Array.size_push] at hb
  have hs : cx.custodian.slots.size < UInt32.size := by
    rw [UInt32.size]
    omega
  exact UInt32.toNat_ofNat_of_lt' hs

theorem size_le_of_push (hb : (cx.custodian.slots.push (some v)).size ≤ 2 ^ 32) :
    cx.custodian.slots.size ≤ 2 ^ 32 := by
  rw [Array.size_push] at hb
  omega

/-- A list that was made of a value. -/
theorem convert (h : cx.Keeps shares ρs) (v : Value) :
    { cx with custodian := { cx.custodian with slots := cx.custodian.slots.push (some v) } }.Keeps
      (((UInt32.ofNat cx.custodian.slots.size).toNat, v) ::ₘ shares) ρs := by
  refine ⟨fun hb => ?_, fun hb s hs => ?_, h.entries, h.proxies, fun hb k key ρ hf => ?_⟩
  · rw [Custodian.occupied_push, ← h.balanced (size_le_of_push hb), Multiset.map_cons,
      next_toNat hb, Multiset.add_cons]
    rfl
  · rcases Multiset.mem_cons.1 hs with rfl | hs
    · rw [next_toNat hb]
      exact Array.getElem?_push_size
    · exact getElem?_push (h.origins (size_le_of_push hb) s hs)
  · exact getElem?_push (h.objects (size_le_of_push hb) k key ρ hf)

/-- A resolution that made an entry. -/
theorem enroll (h : cx.Keeps shares ρs) {k : ProxyKind} {key : Int64} (c : ContextId)
    (r : ObjectRef) (hn : (cx.identities k).get? key = none) :
    (cx.enrolling k r key).Keeps shares
      (ρs ++ [⟨k, r, key, ⟨c, key, ⟨UInt32.ofNat cx.custodian.slots.size⟩⟩⟩]) := by
  have hslots := enrolling_custodian cx k r key
  have hget := enrolling_get? r hn
  have hnone : firstResolution k key ρs = none := by
    have he := h.entries k key
    rw [hn] at he
    exact Option.map_eq_none_iff.1 he.symm
  refine ⟨fun hb => ?balanced, fun hb s hs => ?origins, fun k' key' => ?entries, fun ρ hρ => ?proxies,
    fun hb k' key' ρ hf => ?objects⟩
  case balanced =>
    rw [hslots] at hb ⊢
    rw [Custodian.occupied_push, ← h.balanced (size_le_of_push hb), enrolling_rootSlots,
      enrolling_cachedSlots, next_toNat hb, Multiset.add_cons, Multiset.cons_add]
  case origins =>
    rw [hslots] at hb ⊢
    exact getElem?_push (h.origins (size_le_of_push hb) s hs)
  case entries =>
    rw [hget, firstResolution_append]
    by_cases hk : k = k' ∧ key = key'
    · obtain ⟨rfl, rfl⟩ := hk
      simp [hnone]
    · rw [if_neg hk, if_neg hk, Option.or_none]
      exact h.entries k' key'
  case proxies =>
    rcases List.mem_append.1 hρ with hρ | hρ
    · obtain ⟨hkey, hentry⟩ := h.proxies ρ hρ
      refine ⟨hkey, ?_⟩
      rw [hget, if_neg, hentry]
      rintro ⟨rfl, rfl⟩
      rw [hentry] at hn
      cases hn
    · obtain rfl := List.mem_singleton.1 hρ
      exact ⟨rfl, by simp [hget]⟩
  case objects =>
    rw [hslots] at hb ⊢
    rw [firstResolution_append] at hf
    cases hfirst : firstResolution k' key' ρs with
    | some σ =>
      rw [hfirst, Option.some_or, Option.some.injEq] at hf
      subst hf
      exact getElem?_push (h.objects (size_le_of_push hb) k' key' σ hfirst)
    | none =>
      rw [hfirst, Option.none_or] at hf
      split at hf
      · cases hf
        rw [next_toNat hb]
        exact Array.getElem?_push_size
      · cases hf

/-- The release of a list. No other owner has its slot. -/
theorem release (h : cx.Keeps (s ::ₘ shares) ρs) :
    { cx with custodian := { cx.custodian with
      slots := cx.custodian.slots.setIfInBounds s.1 none } }.Keeps shares ρs := by
  have hsize (hb : (cx.custodian.slots.setIfInBounds s.1 none).size ≤ 2 ^ 32) :
      cx.custodian.slots.size ≤ 2 ^ 32 := by
    rwa [Array.size_setIfInBounds] at hb
  have hs (hb : cx.custodian.slots.size ≤ 2 ^ 32) := h.origins hb s (Multiset.mem_cons_self s _)
  have hbal (hb : cx.custodian.slots.size ≤ 2 ^ 32) :
      cx.rootSlots + cx.cachedSlots + shares.map Prod.fst = Custodian.occupied
        { cx.custodian with slots := cx.custodian.slots.setIfInBounds s.1 none } := by
    have ho := h.balanced hb
    rw [Custodian.occupied_release (hs hb), Multiset.map_cons, Multiset.add_cons] at ho
    exact (Multiset.cons_inj_right s.1).1 ho
  -- The slot of the released list is free, so whoever owns a slot owns another one.
  have hother (hb : cx.custodian.slots.size ≤ 2 ^ 32) {i : Nat}
      (hi : i ∈ cx.rootSlots + cx.cachedSlots + shares.map Prod.fst) : s.1 ≠ i := by
    rintro rfl
    rw [hbal hb, Custodian.mem_occupied] at hi
    obtain ⟨v, hv⟩ := hi
    rw [Custodian.getElem?_release (hs hb), if_pos rfl] at hv
    cases hv
  refine ⟨fun hb => hbal (hsize hb), fun hb t ht => ?_, h.entries, h.proxies,
    fun hb k key ρ hf => ?_⟩
  · have hm : t.1 ∈ shares.map Prod.fst := Multiset.mem_map_of_mem Prod.fst ht
    have hne := hother (hsize hb) (Multiset.mem_add.2 (.inr hm))
    change (cx.custodian.slots.setIfInBounds s.1 none)[t.1]? = _
    rw [Custodian.getElem?_release (hs (hsize hb)), if_neg hne]
    exact h.origins (hsize hb) t (Multiset.mem_cons_of_mem ht)
  · have he := h.entries k key
    rw [hf, Option.map_some] at he
    have hm := Context.mem_cachedSlots (IdentityMap.mem_slots_of_get? he)
    have hne := hother (hsize hb) (Multiset.mem_add.2 (.inl (Multiset.mem_add.2 (.inr hm))))
    change (cx.custodian.slots.setIfInBounds s.1 none)[ρ.proxy.handle.index.toNat]? = _
    rw [Custodian.getElem?_release (hs (hsize hb)), if_neg hne]
    exact h.objects (hsize hb) k key ρ hf

/-- With more slots than handles, nothing is known of the lists. -/
theorem of_large {shares' : Multiset (Nat × Value)} (h : cx.Keeps shares ρs)
    (hl : ¬cx.custodian.slots.size ≤ 2 ^ 32) : cx.Keeps shares' ρs :=
  ⟨fun hb => absurd hb hl, fun hb => absurd hb hl, h.entries, h.proxies, fun hb => absurd hb hl⟩

/-- A custodian that takes a handle back frees the slot of that handle. -/
theorem release_cases {ρ : Type} {custodian custodian' : Custodian ρ} {id : HandleId}
    (hr : custodian.release id = .ok custodian') :
    custodian' = { custodian with slots := custodian.slots.setIfInBounds id.index.toNat none } := by
  unfold Custodian.release at hr
  split at hr
  · cases hr
  · split at hr
    · exact (Except.ok.inj hr).symm
    · cases hr
    · cases hr

variable {handle : HandleId}

/-- A list gives its handle back. -/
theorem released (h : cx.Keeps ((handle.index.toNat, v) ::ₘ shares) ρs)
    {custodian : Custodian ScannerId} (hr : cx.custodian.release handle = .ok custodian) :
    { cx with custodian }.Keeps shares ρs := by
  rw [release_cases hr]
  exact h.release

/-- The custodian takes the handle of a list back, as long as handles suffice. -/
theorem of_refused (h : cx.Keeps ((handle.index.toNat, v) ::ₘ shares) ρs)
    (ho : cx.custodian.closed = false) {e : LifetimeError}
    (hr : cx.custodian.release handle = .error e) : cx.Keeps shares ρs := by
  refine h.of_large fun hb => ?_
  rw [Custodian.release_of_holds ho (h.origins hb _ (Multiset.mem_cons_self _ _))] at hr
  cases hr

/-- A new context keeps its first handles. -/
theorem fresh (p : Bootstrap.Parts) (token : Value) (rules : IdentityRules) :
    (Bootstrap.newContext p token rules).Keeps 0 [] := by
  refine ⟨fun _ => ?_, fun _ s hs => ?_, fun k key => ?_, fun ρ hρ => ?_, fun _ k key ρ hf => ?_⟩
  · obtain ⟨program, checker, scannerFactory, nodeId, forEachChild, kinds⟩ := p
    cases forEachChild <;> rfl
  · exact absurd hs (Multiset.notMem_zero s)
  · cases k <;> rfl
  · exact absurd hρ List.not_mem_nil
  · cases hf

end Context.Keeps

end ProxySession
