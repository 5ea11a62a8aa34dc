import ProxySession.Proofs.Slots
import ProxySession.Proofs.Transitions

/-!
# Tokens of objects

Where a rule of a context is to identify by tokens, the key of an object is its place among the objects
that were resolved by this rule, in the order of first sight. The numbering behind the context's token
source has seen just these objects, and nothing that a session does puts anything else into it.
-/

namespace ProxySession

/-! ## Numberings -/

theorem eraseDups_concat {α : Type} [DecidableEq α] (as : List α) (a : α) :
    (as ++ [a]).eraseDups = if a ∈ as then as.eraseDups else as.eraseDups ++ [a] := by
  rw [List.eraseDups_append, List.removeAll]
  split
  · next h => simp [h]
  · next h => simp [h, List.eraseDups_cons]

/-- What was seen first keeps its place. -/
theorem idxOf_eraseDups_concat {α : Type} [DecidableEq α] {as : List α} {a b : α} (h : b ∈ as) :
    (as ++ [a]).eraseDups.idxOf b = as.eraseDups.idxOf b := by
  rw [eraseDups_concat]
  split
  · rfl
  · exact List.idxOf_append_of_mem (List.mem_eraseDups.2 h)

namespace Numbering

/-- The numbering that has seen these objects one after the other. -/
def of (rs : List ObjectRef) : Numbering := ⟨rs.eraseDups⟩

theorem number_of (rs : List ObjectRef) (r : ObjectRef) :
    (of rs).number r = ((rs ++ [r]).eraseDups.idxOf r + 1, of (rs ++ [r])) := by
  simp only [number, of, eraseDups_concat, List.mem_eraseDups]
  split
  · rfl
  · next h => simp [List.idxOf_append, h, List.mem_eraseDups]

end Numbering

/-- The number that a token is: no count goes past the integers of 53 bits. -/
def tokenOf (place : Nat) : Nat := min (place + 1) (2 ^ 53)

/-! ## Rules -/

/-- Whether the keys of a kind are tokens. -/
def IdentityRules.tokens (rules : IdentityRules) : ProxyKind → Bool
  | .node | .type => false
  | .symbol => decide (rules.symbolIdentity = .objectToken)
  | .signature => decide (rules.signatureIdentity = .objectToken)

theorem IdentityRules.tokens_default {rules : IdentityRules} {k : ProxyKind}
    (h : (default : IdentityRules).tokens k = false) : rules.tokens k = false := by
  cases k with
  | node | type => rfl
  | symbol | signature => cases h

/-! ## Contexts that go on -/

/-- Two states of a context, one after the other: it keeps its rules and its token source, and while it is
open each slot keeps what it has or is emptied. -/
structure Context.Precedes (cx cx' : Context) : Prop where
  rules : cx'.rules = cx.rules
  source : cx'.identityToken = cx.identityToken
  isOpen : cx'.custodian.closed = false → cx.custodian.closed = false
  slots : cx'.custodian.closed = false → ∀ i o, cx.custodian.slots[i]? = some o →
    cx'.custodian.slots[(i : Nat)]? = some (o : Option Value) ∨ cx'.custodian.slots[i]? = some none

namespace Context.Precedes

variable {cx cx' cx'' : Context}

theorem of_slots (hr : cx'.rules = cx.rules) (hi : cx'.identityToken = cx.identityToken)
    (hc : cx'.custodian.closed = cx.custodian.closed)
    (hs : cx'.custodian.slots = cx.custodian.slots) : cx.Precedes cx' where
  rules := hr
  source := hi
  isOpen ho := hc ▸ ho
  slots _ _ _ ho := .inl (hs ▸ ho)

theorem refl (cx : Context) : cx.Precedes cx := .of_slots rfl rfl rfl rfl

theorem trans (h₁ : cx.Precedes cx') (h₂ : cx'.Precedes cx'') : cx.Precedes cx'' where
  rules := h₂.rules.trans h₁.rules
  source := h₂.source.trans h₁.source
  isOpen ho := h₁.isOpen (h₂.isOpen ho)
  slots ho i o hs := by
    rcases h₁.slots (h₂.isOpen ho) i o hs with hs' | hs'
    · exact h₂.slots ho i o hs'
    · exact .inr ((h₂.slots ho i none hs').elim id id)

theorem push (cx : Context) (v : Value) : cx.Precedes
    { cx with custodian := { cx.custodian with slots := cx.custodian.slots.push (some v) } } where
  rules := rfl
  source := rfl
  isOpen := id
  slots _ i o ho := by
    obtain ⟨hi, hget⟩ := Array.getElem?_eq_some_iff.1 ho
    exact .inl ((Array.getElem?_push_lt hi).trans (congrArg some hget))

theorem release {custodian : Custodian ScannerId} {id : HandleId}
    (h : cx.custodian.release id = .ok custodian) : cx.Precedes { cx with custodian } := by
  rw [Custodian.release] at h
  split at h
  · cases h
  · split at h
    · next v hv =>
      cases h
      refine ⟨rfl, rfl, fun ho => ho, fun _ i o ho => ?_⟩
      rw [Custodian.getElem?_release hv]
      split
      · exact .inr rfl
      · exact .inl ho
    · cases h
    · cases h

theorem setIdentities (cx : Context) (k : ProxyKind) (map : IdentityMap HandleId) :
    cx.Precedes (cx.setIdentities k map) := by
  cases k <;> exact .of_slots rfl rfl rfl rfl

theorem shut (cx : Context) : cx.Precedes cx.shut where
  rules := rfl
  source := rfl
  isOpen ho := by cases ho
  slots ho := by cases ho

end Context.Precedes

/-! ## What leaves the tokens alone -/

namespace Holdings

/-- The contexts go on, and no new resolution has a token for its key. -/
structure Tame (h h' : Holdings) : Prop where
  size : h'.contexts.size = h.contexts.size
  contexts : ∀ c, (h.context c).Precedes (h'.context c)
  resolutions : ∃ new, h'.resolutions.toList = h.resolutions.toList ++ new ∧
    ∀ ρ ∈ new, (h.context ρ.proxy.context).rules.tokens ρ.kind = false

namespace Tame

variable {h h' h'' : Holdings}

theorem same (hc : h'.contexts = h.contexts) (hr : h'.resolutions = h.resolutions) : h.Tame h' where
  size := by rw [hc]
  contexts c := by
    rw [context, context, hc]
    exact .refl _
  resolutions := ⟨[], by rw [hr, List.append_nil], fun ρ hρ => absurd hρ List.not_mem_nil⟩

theorem refl (h : Holdings) : h.Tame h := .same rfl rfl

theorem trans (h₁ : h.Tame h') (h₂ : h'.Tame h'') : h.Tame h'' where
  size := h₂.size.trans h₁.size
  contexts c := (h₁.contexts c).trans (h₂.contexts c)
  resolutions := by
    obtain ⟨new, hnew, hkinds⟩ := h₁.resolutions
    obtain ⟨newer, hnewer, hkinds'⟩ := h₂.resolutions
    refine ⟨new ++ newer, by rw [hnewer, hnew, List.append_assoc], fun ρ hρ => ?_⟩
    rcases List.mem_append.1 hρ with hρ | hρ
    · exact hkinds ρ hρ
    · rw [← (h₁.contexts _).rules]
      exact hkinds' ρ hρ

theorem modifyContext (c : ContextId) (h : Holdings) {f : Context → Context}
    (hf : (h.context c).Precedes (f (h.context c))) : h.Tame (h.modifyContext c f) where
  size := Array.size_modify
  contexts d := by
    rw [context_modifyContext]
    split
    · next hd =>
      obtain ⟨rfl, _⟩ := hd
      exact hf
    · exact .refl _
  resolutions := (refl h).resolutions

theorem take (r : Reference) (h : Holdings) : h.Tame (h.take r) := by
  cases r with
  | list l => exact .same rfl rfl
  | context c => exact .modifyContext c h (.of_slots rfl rfl rfl rfl)
  | scanner s => exact .same rfl rfl

theorem record {ρ : Resolution} (h : Holdings)
    (hρ : (h.context ρ.proxy.context).rules.tokens ρ.kind = false) : h.Tame (h.record ρ) where
  size := rfl
  contexts c := .refl _
  resolutions := ⟨[ρ], Array.toList_push .., fun σ hσ => by rwa [List.mem_singleton.1 hσ]⟩

theorem retain (c : ContextId) (v : Value) (h : Holdings) : h.Tame (h.retain c v) :=
  .modifyContext c h (.push _ v)

theorem addEntry (c : ContextId) (k : ProxyKind) (key : Int64) (handle : HandleId) (h : Holdings) :
    h.Tame (h.addEntry c k key handle) :=
  .modifyContext c h (.setIdentities _ k _)

/-- What becomes of the contexts when an object gets a proxy of its own. -/
theorem enrolled (c : ContextId) (k : ProxyKind) (r : ObjectRef) (key : Int64) (h : Holdings) :
    h.Tame ((h.retain c (.object r)).addEntry c k key (h.nextHandle c)) :=
  (retain c _ h).trans (addEntry c k key _ _)

theorem convert (c : ContextId) (v : Value) (length : Nat) (h : Holdings) :
    h.Tame (h.convert c v length) :=
  (retain c v h).trans (.same rfl rfl)

theorem openSession (c : ContextId) (text : String) (r : ObjectRef) (h : Holdings) :
    h.Tame (h.openSession c text r) := by
  have hpush : h.Tame { h with scanners := h.scanners.push (freshSession c text r) } := .same rfl rfl
  refine (hpush.trans ?_).trans (take (.context c) _)
  exact .modifyContext c _ (.of_slots rfl rfl rfl rfl)

/-! ### Closing and giving back -/

theorem shutScanner (s : ScannerId) (h : Holdings) : h.Tame (h.shutScanner s) := .same rfl rfl

theorem shutScanners (ss : List ScannerId) (h : Holdings) : h.Tame (h.shutScanners ss) := by
  induction ss generalizing h with
  | nil => exact refl h
  | cons s rest ih => exact (shutScanner s h).trans (ih _)

theorem shutContext (c : ContextId) (h : Holdings) : h.Tame (h.shutContext c) := by
  rw [Holdings.shutContext]
  split
  · exact refl h
  · exact (shutScanners _ h).trans (.modifyContext c _ (.shut _))

theorem giveContext (c : ContextId) (h : Holdings) : h.Tame (h.giveContext c) := by
  have hlower : h.Tame (h.modifyContext c fun cx => { cx with references := cx.references - 1 }) :=
    .modifyContext c h (.of_slots rfl rfl rfl rfl)
  rw [Holdings.giveContext]
  split
  · exact hlower.trans (shutContext c _)
  · exact hlower

theorem releaseList (l : ListId) (h : Holdings) : h.Tame (h.releaseList false l) := by
  simp only [Holdings.releaseList, Bool.false_eq_true, if_false]
  split
  · exact refl h
  · split
    · next custodian hok => exact .modifyContext _ h (.release hok)
    · exact refl h

theorem giveBack (r : Reference) (h : Holdings) : h.Tame (h.giveBack r) := by
  cases r with
  | list l =>
    have hlower : h.Tame (h.modifyList l fun cell => { cell with clones := cell.clones - 1 }) :=
      .same rfl rfl
    rw [Holdings.giveBack, giveList]
    split
    · exact hlower.trans (releaseList l _)
    · exact hlower
  | context c => exact giveContext c h
  | scanner s =>
    have hlower : h.Tame (h.modifyScanner s fun session =>
        { session with clones := session.clones - 1 }) := .same rfl rfl
    rw [Holdings.giveBack, giveScanner]
    split
    · exact (hlower.trans (shutScanner s _)).trans (giveContext _ _)
    · exact hlower

end Tame

/-- No key becomes a token. -/
def Untokened (h h' : Holdings) : Prop :=
  ∀ c k, (h.context c).rules.tokens k = false → (h'.context c).rules.tokens k = false

variable {h h' h'' : Holdings}

theorem Untokened.refl (h : Holdings) : h.Untokened h := fun _ _ => id

theorem Untokened.trans (h₁ : h.Untokened h') (h₂ : h'.Untokened h'') : h.Untokened h'' :=
  fun c k hk => h₂ c k (h₁ c k hk)

theorem Tame.untokened (ht : h.Tame h') : h.Untokened h' := fun c k hk => by
  rwa [(ht.contexts c).rules]

/-- Whatever the rules of a new context are to be, tokens are what an unknown one goes by. -/
theorem Untokened.openContext (cx : Context) (h : Holdings) : h.Untokened (h.openContext cx) := by
  intro c k hk
  have hc : (h.openContext cx).context c = if c.index = h.contexts.size then cx else h.context c :=
    getD_push h.contexts cx c.index
  rw [hc]
  split
  · next hi =>
    rw [context, getD_of_size_le (Nat.le_of_eq hi.symm)] at hk
    exact IdentityRules.tokens_default hk
  · exact hk

/-! ## Keys that are tokens -/

/-- The resolutions in a context whose keys are tokens. -/
def tokened (c : ContextId) (h : Holdings) : List Resolution :=
  h.resolutions.toList.filter fun ρ =>
    ρ.proxy.context = c ∧ (h.context c).rules.tokens ρ.kind = true

/-- The objects that were resolved by tokens in a context, in the order of first sight. -/
def sighted (c : ContextId) (h : Holdings) : List ObjectRef :=
  ((h.tokened c).map Resolution.object).eraseDups

/-- Each key that is a token is the place of its object. -/
def Keyed (h : Holdings) : Prop :=
  ∀ c, ∀ ρ ∈ h.tokened c, ρ.key.toInt = tokenOf ((h.sighted c).idxOf ρ.object)

theorem mem_tokened {c : ContextId} {ρ : Resolution} : ρ ∈ h.tokened c ↔
    ρ ∈ h.resolutions ∧ ρ.proxy.context = c ∧ (h.context c).rules.tokens ρ.kind = true := by
  simp [tokened]

theorem Tame.tokened (ht : h.Tame h') (c : ContextId) : h'.tokened c = h.tokened c := by
  obtain ⟨new, hnew, hkinds⟩ := ht.resolutions
  have hnone : (new.filter fun ρ =>
      ρ.proxy.context = c ∧ (h.context c).rules.tokens ρ.kind = true) = [] := by
    refine List.filter_eq_nil_iff.2 fun ρ hρ hc => ?_
    obtain ⟨rfl, htok⟩ := of_decide_eq_true hc
    rw [hkinds ρ hρ] at htok
    cases htok
  rw [Holdings.tokened, hnew, (ht.contexts c).rules, List.filter_append, hnone, List.append_nil,
    Holdings.tokened]

theorem Keyed.of_tokened (hk : h.Keyed) (ht : ∀ c, h'.tokened c = h.tokened c) : h'.Keyed := by
  intro c ρ hρ
  rw [ht] at hρ
  rw [sighted, ht]
  exact hk c ρ hρ

theorem tokened_record (ρ : Resolution) (h : Holdings) (c : ContextId) :
    (h.record ρ).tokened c = h.tokened c ++
      if ρ.proxy.context = c ∧ (h.context c).rules.tokens ρ.kind = true then [ρ] else [] := by
  have hr : (h.record ρ).resolutions.toList = h.resolutions.toList ++ [ρ] := Array.toList_push ..
  rw [tokened, hr, List.filter_append, List.filter_singleton, Bool.cond_decide]
  rfl

/-- An object that is resolved by its token, be it new or not. -/
theorem Keyed.record {ρ : Resolution} (hk : h.Keyed)
    (hρ : ρ.key.toInt = tokenOf (((h.tokened ρ.proxy.context).map Resolution.object ++
      [ρ.object]).eraseDups.idxOf ρ.object)) : (h.record ρ).Keyed := by
  intro c σ hσ
  rw [tokened_record] at hσ
  rw [sighted, tokened_record]
  split at hσ
  · next hc =>
    obtain ⟨rfl, htok⟩ := hc
    rw [if_pos ⟨rfl, htok⟩, List.map_append]
    rcases List.mem_append.1 hσ with hσ | hσ
    · have hσ' := List.mem_map_of_mem (f := Resolution.object) hσ
      rw [List.map_singleton, idxOf_eraseDups_concat hσ']
      exact hk _ σ hσ
    · rw [List.mem_singleton.1 hσ]
      exact hρ
  · next hc =>
    rw [List.append_nil] at hσ
    rw [if_neg hc, List.append_nil]
    exact hk c σ hσ

end Holdings

/-! ## Worlds with tokens in order -/

namespace Heap

/-- A token source stays one. -/
theorem Evolves.tokenSource {h h' : Heap} (he : h.Evolves h') {v : Value} {i : Nat}
    (hv : h.tokenSource? v = some i) : h'.tokenSource? v = some i := by
  cases v with
  | object r =>
    have hk : (h.object r).kind = .tokenSource i := by
      rw [tokenSource?] at hv
      split at hv
      · next hk =>
        cases hv
        exact hk
      · cases hv
    have hr : r.index < h.objects.size := by
      by_contra hn
      rw [object, getD_of_size_le (Nat.le_of_not_lt hn)] at hk
      cases hk
    have hs := he.kinds r hr
    rw [hk] at hs
    generalize hk' : (h'.object r).kind = k at hs
    cases hs
    simp [tokenSource?, hk']
  | _ => cases hv

end Heap

namespace World

/-- The slot of a context's token source holds the source of the context's own numbering, if anything. -/
def HasSource (w : World) (c : ContextId) : Prop :=
  ∃ o, (w.context c).custodian.slots[(w.context c).identityToken.index.toNat]? = some o ∧
    ∀ v, o = some v → w.heap.tokenSource? v = some c.index

/-- The tokens are in order: each numbering is behind the token source of its own context and has seen
just the objects that were resolved by tokens there, and their keys are and were their places. -/
structure Tokened (w : World) : Prop where
  size : w.numberings.size = w.contexts.size
  sources : ∀ c : ContextId, c.index < w.contexts.size → (w.context c).custodian.closed = false →
    w.HasSource c
  seen : ∀ c : ContextId, w.numberings.getD c.index .empty =
    .of ((w.tokened c).map Resolution.object)
  keyed : w.toHoldings.Keyed
  past : ∀ h ∈ w.history, h.Keyed

variable {w w' : World} {c : ContextId}

theorem HasSource.later (hs : w.HasSource c) (he : w.heap.Evolves w'.heap)
    (hc : (w.context c).Precedes (w'.context c)) (ho : (w'.context c).custodian.closed = false) :
    w'.HasSource c := by
  obtain ⟨o, hslot, hvalue⟩ := hs
  rw [HasSource, hc.source]
  rcases hc.slots ho _ o hslot with hslot' | hslot'
  · exact ⟨o, hslot', fun v hv => he.tokenSource (hvalue v hv)⟩
  · exact ⟨none, hslot', fun v hv => nomatch hv⟩

theorem Tokened.tame (ht : w.Tokened) (hh : w.toHoldings.Tame w'.toHoldings)
    (he : w.heap.Evolves w'.heap) (hn : w'.numberings = w.numberings)
    (hp : w'.history = w.history) : w'.Tokened where
  size := by rw [hn, hh.size, ht.size]
  sources c hv ho :=
    (ht.sources c (hh.size ▸ hv) ((hh.contexts c).isOpen ho)).later he (hh.contexts c) ho
  seen c := by rw [hn, ht.seen, hh.tokened]
  keyed := ht.keyed.of_tokened hh.tokened
  past := hp ▸ ht.past

theorem Tokened.indoors {h : Holdings} (ht : w.Tokened) (hi : w.Indoors w') (hb : w.Becomes w' h)
    (hh : w.toHoldings.Tame h) : w'.Tokened := by
  have he : w'.heap = w.heap := by rw [← hi.rest]
  have hn : w'.numberings = w.numberings := by rw [← hi.rest]
  exact ht.tame (hb.holdings ▸ hh) (he ▸ .refl _) hn hb.history

theorem Tokened.mark (ht : w.Tokened) : w.mark.Tokened where
  size := ht.size
  sources := ht.sources
  seen := ht.seen
  keyed := ht.keyed
  past := List.forall_mem_cons.2 ⟨ht.keyed, ht.past⟩

/-- The world in which a numbering has seen an object. -/
def numbered (i : Nat) (r : ObjectRef) (w : World) : World :=
  { w with numberings := w.numberings.setIfInBounds i ((w.numberings.getD i .empty).number r).2 }

/-- An object gets its token, and then its resolution goes on record. -/
theorem Tokened.resolved {h : Holdings} {ρ : Resolution} (ht : w.Tokened)
    (hv : ρ.proxy.context.index < w.contexts.size)
    (htok : (w.context ρ.proxy.context).rules.tokens ρ.kind = true)
    (hkey : ρ.key.toInt =
      min ((w.numberings.getD ρ.proxy.context.index .empty).number ρ.object).1 (2 ^ 53))
    (hh : w.toHoldings.Tame h) (hw : w'.toHoldings = h.record ρ) (he : w.heap.Evolves w'.heap)
    (hn : w'.numberings = (w.numbered ρ.proxy.context.index ρ.object).numberings)
    (hp : w'.history = w.history) : w'.Tokened := by
  have hctx (c : ContextId) : w'.context c = h.context c := by
    rw [hw]
    rfl
  have hsize : w'.contexts.size = w.contexts.size := by
    rw [hw]
    exact hh.size
  rw [ht.seen, Numbering.number_of] at hkey
  refine ⟨?_, fun c hvc ho => ?_, fun c => ?_, ?_, hp ▸ ht.past⟩
  · rw [hn, hsize, ← ht.size]
    exact Array.size_setIfInBounds
  · have hc := hh.contexts c
    rw [← hctx c] at hc
    exact (ht.sources c (hsize ▸ hvc) (hc.isOpen ho)).later he hc ho
  · rw [hn, hw, Holdings.tokened_record, hh.tokened, (hh.contexts c).rules, numbered,
      getD_setIfInBounds _ _ (ht.size ▸ hv)]
    by_cases hc : ρ.proxy.context = c
    · subst hc
      rw [if_pos rfl, if_pos ⟨rfl, htok⟩, ht.seen, Numbering.number_of, List.map_append]
      rfl
    · have hi : ρ.proxy.context.index ≠ c.index := fun h => hc (congrArg ContextId.mk h)
      rw [if_neg hi, if_neg fun h => hc h.1, List.append_nil, ht.seen]
  · rw [hw]
    refine (ht.keyed.of_tokened hh.tokened).record ?_
    rw [hh.tokened]
    exact_mod_cast hkey

/-- A context opens with a token source and an empty numbering of its own. -/
theorem Tokened.opened (ht : w.Tokened) (p : Bootstrap.Parts) (token : Value) (rules : IdentityRules)
    (hw : w'.toHoldings = w.toHoldings.openContext (Bootstrap.newContext p token rules))
    (htoken : w'.heap.tokenSource? token = some w.contexts.size) (he : w.heap.Evolves w'.heap)
    (hn : w'.numberings = w.numberings.push .empty) (hp : w'.history = w.history) : w'.Tokened := by
  have hctx (c : ContextId) : w'.context c = if c.index = w.contexts.size then
      Bootstrap.newContext p token rules else w.context c := by
    rw [hw]
    exact getD_push w.contexts _ c.index
  have hsize : w'.contexts.size = w.contexts.size + 1 := by
    rw [hw]
    exact Array.size_push _
  -- Before it opens, nothing was resolved in it, whatever its rules are to be.
  have hnone (c : ContextId) (hc : c.index = w.contexts.size) : w.tokened c = [] := by
    have hseen := ht.seen c
    rw [getD_of_size_le (by rw [ht.size, hc]), Numbering.empty, Numbering.of,
      Numbering.mk.injEq] at hseen
    refine List.eq_nil_iff_forall_not_mem.2 fun ρ hρ => ?_
    have hmem := List.mem_eraseDups.2 (List.mem_map_of_mem (f := Resolution.object) hρ)
    rw [← hseen] at hmem
    exact List.not_mem_nil hmem
  have htokened (c : ContextId) : w'.tokened c = w.tokened c := by
    by_cases hc : c.index = w.contexts.size
    · rw [hnone c hc]
      refine List.eq_nil_iff_forall_not_mem.2 fun ρ hρ => ?_
      obtain ⟨hρ, hρc, htok⟩ := Holdings.mem_tokened.1 hρ
      have hd : w.context c = default := getD_of_size_le (Nat.le_of_eq hc.symm)
      have hout : ρ ∉ w.tokened c := by
        rw [hnone c hc]
        exact List.not_mem_nil
      have hdefault : (default : IdentityRules).tokens ρ.kind = false := by
        by_contra hn
        refine hout (Holdings.mem_tokened.2 ⟨?_, hρc, ?_⟩)
        · rw [hw] at hρ
          exact hρ
        · rw [hd]
          exact Bool.eq_true_of_not_eq_false hn
      rw [IdentityRules.tokens_default hdefault] at htok
      cases htok
    · rw [Holdings.tokened, Holdings.tokened, hctx, if_neg hc, hw]
      rfl
  refine ⟨?_, fun c hvc ho => ?_, fun c => ?_, ht.keyed.of_tokened htokened, hp ▸ ht.past⟩
  · rw [hn, hsize, Array.size_push, ht.size]
  · rw [HasSource, hctx]
    split
    · next hc => exact ⟨_, rfl, fun v hv => by cases hv; rw [htoken, hc]⟩
    · next hc =>
      have hvc' : c.index < w.contexts.size := by omega
      rw [hctx, if_neg hc] at ho
      obtain ⟨o, hslot, hvalue⟩ := ht.sources c hvc' ho
      exact ⟨o, hslot, fun v hv => he.tokenSource (hvalue v hv)⟩
  · rw [htokened, hn, getD_push, ← ht.seen, ht.size]
    split
    · next hc => rw [getD_of_size_le (by rw [ht.size, hc])]
    · rfl

theorem ofHeap_tokened (heap : Heap) : (World.ofHeap heap).Tokened where
  size := rfl
  sources _ hv := absurd hv (Nat.not_lt_zero _)
  seen _ := rfl
  keyed _ _ hρ := absurd hρ List.not_mem_nil
  past _ hh := absurd hh List.not_mem_nil

end World

end ProxySession
