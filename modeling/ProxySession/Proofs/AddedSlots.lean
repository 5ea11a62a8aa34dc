import ProxySession.Proofs.Accounting
import ProxySession.Proofs.UntouchedContexts

/-!
# Slots that a context adds

What a context adds while nothing that it holds is given up: entries, each with a handle of its own, and
lists, each with a handle of its own. Additions add up, and a list that was added can be given up again.
-/

namespace ProxySession

namespace Context

/-- A context keeps its entries and what is in its slots, and retains further handles: one for each new
entry and `count` others. -/
structure Accounts (cx cx' : Context) (count : Nat) : Prop where
  entries : ∀ k, (cx.identities k).entries <+: (cx'.identities k).entries
  slots : ∀ i, i < cx.custodian.slots.size → cx'.custodian.slots[i]? = cx.custodian.slots[i]?
  handles : cx'.custodian.liveHandles + cx.entryCount =
    cx.custodian.liveHandles + cx'.entryCount + count

/-- A context that stays open accounts for some new slots. No handle stands for another one of them as long
as handles suffice. -/
structure AddsSlots (cx cx' : Context) (own : List Nat) : Prop extends Accounts cx cx' own.length where
  closed : cx'.custodian.closed = cx.custodian.closed
  references : cx'.references = cx.references
  size : cx.custodian.slots.size ≤ cx'.custodian.slots.size
  fresh : cx'.custodian.slots.size ≤ 2 ^ 32 →
    own.Nodup ∧ ∀ i ∈ own, cx.custodian.slots.size ≤ i ∧ i ∈ cx'.custodian.occupied

namespace AddsSlots

variable {cx cx' cx'' : Context} {own own' : List Nat}

theorem still (hc : cx'.custodian = cx.custodian) (hr : cx'.references = cx.references)
    (hi : ∀ k, cx'.identities k = cx.identities k) : cx.AddsSlots cx' [] where
  entries k := by rw [hi]
  slots _ _ := by rw [hc]
  handles := by
    have hcount : cx'.entryCount = cx.entryCount := by
      have hnodes : cx'.nodes = cx.nodes := hi .node
      have htypes : cx'.types = cx.types := hi .type
      have hsymbols : cx'.symbols = cx.symbols := hi .symbol
      have hsignatures : cx'.signatures = cx.signatures := hi .signature
      rw [entryCount, hnodes, htypes, hsymbols, hsignatures, entryCount]
    rw [hc, hcount]
    rfl
  closed := by rw [hc]
  references := hr
  size := Nat.le_of_eq (by rw [hc])
  fresh _ := ⟨List.nodup_nil, fun _ hi => absurd hi List.not_mem_nil⟩

theorem trans (h₁ : cx.AddsSlots cx' own) (h₂ : cx'.AddsSlots cx'' own') : cx.AddsSlots cx'' (own ++ own') where
  entries k := (h₁.entries k).trans (h₂.entries k)
  slots i hi := (h₂.slots i (Nat.lt_of_lt_of_le hi h₁.size)).trans (h₁.slots i hi)
  handles := by
    have hh₁ := h₁.handles
    have hh₂ := h₂.handles
    rw [List.length_append]
    omega
  closed := h₂.closed.trans h₁.closed
  references := h₂.references.trans h₁.references
  size := Nat.le_trans h₁.size h₂.size
  fresh hb := by
    obtain ⟨hn₁, hown₁⟩ := h₁.fresh (Nat.le_trans h₂.size hb)
    obtain ⟨hn₂, hown₂⟩ := h₂.fresh hb
    -- What was added first is in slots that the second addition leaves alone.
    have hold (i : Nat) (hi : i ∈ own) : i < cx'.custodian.slots.size := by
      obtain ⟨v, hv⟩ := Custodian.mem_occupied.1 (hown₁ i hi).2
      exact (Array.getElem?_eq_some_iff.1 hv).1
    refine ⟨List.nodup_append.2 ⟨hn₁, hn₂, fun i hi j hj he => ?_⟩, fun i hi => ?_⟩
    · have hlt := hold i hi
      have hle := (hown₂ j hj).1
      omega
    · rcases List.mem_append.1 hi with hi | hi
      · refine ⟨(hown₁ i hi).1, Custodian.mem_occupied.2 ?_⟩
        rw [h₂.slots i (hold i hi)]
        exact Custodian.mem_occupied.1 (hown₁ i hi).2
      · exact ⟨Nat.le_trans h₁.size (hown₂ i hi).1, (hown₂ i hi).2⟩

/-! ## A new handle -/

theorem retain (cx : Context) (v : Value) : cx.AddsSlots
    { cx with custodian := { cx.custodian with slots := cx.custodian.slots.push (some v) } }
    [(UInt32.ofNat cx.custodian.slots.size).toNat] where
  entries _ := List.prefix_rfl
  slots i hi := by rw [Array.getElem?_push, if_neg (Nat.ne_of_lt hi)]
  handles := by
    rw [Custodian.liveHandles_push]
    change _ = _ + cx.entryCount + 1
    omega
  closed := rfl
  references := rfl
  size := by simp
  fresh hb := by
    rw [Keeps.next_toNat hb]
    refine ⟨List.nodup_singleton _, fun i hi => ?_⟩
    obtain rfl := List.mem_singleton.1 hi
    exact ⟨Nat.le_refl _, Custodian.mem_occupied.2 ⟨v, Array.getElem?_push_size⟩⟩

theorem enroll (cx : Context) (k : ProxyKind) (r : ObjectRef) (key : Int64) :
    cx.AddsSlots (cx.enrolling k r key) [] where
  entries k' := by
    rw [enrolling_identities]
    split
    · next hk =>
      subst hk
      exact List.prefix_append _ _
    · exact List.prefix_rfl
  slots i hi := by
    rw [enrolling_custodian]
    exact (retain cx (.object r)).slots i hi
  handles := by
    have hcount : (cx.enrolling k r key).entryCount = cx.entryCount + 1 := by
      rw [← card_cachedSlots, enrolling_cachedSlots, Multiset.card_cons, card_cachedSlots]
    rw [enrolling_custodian, Custodian.liveHandles_push, hcount, List.length_nil]
    omega
  closed := by rw [enrolling_custodian]
  references := by rw [enrolling, setIdentities_references]
  size := by
    rw [enrolling_custodian]
    exact (retain cx (.object r)).size
  fresh _ := ⟨List.nodup_nil, fun _ hi => absurd hi List.not_mem_nil⟩

/-! ## A handle that goes again -/

/-- The first of the new slots is emptied. -/
theorem release {i : Nat} (h : cx.AddsSlots cx' (i :: own))
    (hb : cx'.custodian.slots.size ≤ 2 ^ 32) : cx.AddsSlots
      { cx' with custodian := { cx'.custodian with
        slots := cx'.custodian.slots.setIfInBounds i none } } own := by
  obtain ⟨hn, hown⟩ := h.fresh hb
  obtain ⟨hi, hocc⟩ := hown i List.mem_cons_self
  obtain ⟨v, hv⟩ := Custodian.mem_occupied.1 hocc
  have hslot (j : Nat) := Custodian.getElem?_release hv (j := j)
  refine ⟨⟨h.entries, fun j hj => ?_, ?_⟩, h.closed, h.references, ?_, fun _ => ?_⟩
  · change (cx'.custodian.slots.setIfInBounds i none)[j]? = _
    rw [hslot, if_neg (by omega)]
    exact h.slots j hj
  · have hh := h.handles
    rw [Custodian.liveHandles_release hv] at hh
    exact Nat.succ.inj ((Nat.succ_add _ _).symm.trans hh)
  · change _ ≤ (cx'.custodian.slots.setIfInBounds i none).size
    rw [Array.size_setIfInBounds]
    exact h.size
  · -- The slots are all different, so the other ones stay occupied.
    refine ⟨(List.nodup_cons.1 hn).2, fun j hj => ?_⟩
    have hne : i ≠ j := fun he => (List.nodup_cons.1 hn).1 (he ▸ hj)
    obtain ⟨hle, hocc'⟩ := hown j (List.mem_cons_of_mem i hj)
    refine ⟨hle, Custodian.mem_occupied.2 ?_⟩
    change ∃ v, (cx'.custodian.slots.setIfInBounds i none)[j]? = _
    rw [hslot, if_neg hne]
    exact Custodian.mem_occupied.1 hocc'

end AddsSlots

end Context

/-! ## Lists -/

/-- A context that is open and kept alive. -/
structure Context.Ready (cx : Context) : Prop where
  isOpen : cx.custodian.closed = false
  alive : cx.references ≠ 0

theorem Context.AddsSlots.ready {cx cx' : Context} {own : List Nat} (h : cx.AddsSlots cx' own)
    (hr : cx.Ready) : cx'.Ready where
  isOpen := h.closed.trans hr.isOpen
  alive := by
    rw [h.references]
    exact hr.alive

namespace Holdings

/-- What a list gives back leaves the slots of a context as many as they were. -/
theorem giveList_slots_size (l : ListId) (c : ContextId) (h : Holdings) :
    ((h.giveList false l).context c).custodian.slots.size = (h.context c).custodian.slots.size := by
  have hrelease (g : Holdings) :
      ((g.releaseList false l).context c).custodian.slots.size = (g.context c).custodian.slots.size := by
    rcases releaseList_cases l g with ⟨he, _⟩ | ⟨custodian, _, hok, he⟩
    · rw [he]
    · rw [he, context_modifyContext]
      split
      · next hd =>
        rw [← hd.1, Context.Keeps.release_cases hok]
        exact Array.size_setIfInBounds
      · rfl
  rw [giveList_eq]
  split
  · exact hrelease _
  · rfl

/-- Some lists lose a clone each, one after the other. -/
def giveLists (ls : List ListId) (h : Holdings) : Holdings := ls.foldl (fun h l => h.giveList false l) h

theorem giveLists_slots_size (ls : List ListId) (c : ContextId) (h : Holdings) :
    ((h.giveLists ls).context c).custodian.slots.size = (h.context c).custodian.slots.size := by
  induction ls generalizing h with
  | nil => rfl
  | cons l rest ih => exact (ih (h.giveList false l)).trans (giveList_slots_size l c h)

/-- The slot of a list. -/
def slotOf (h : Holdings) (l : ListId) : Nat := (h.list l).handle.index.toNat

/-- A context adds slots, and made some lists that have one clone each. -/
structure Made (c : ContextId) (h h' : Holdings) (ls : List ListId) : Prop where
  adds : (h.context c).AddsSlots (h'.context c) (ls.map h'.slotOf)
  size : h.lists.size ≤ h'.lists.size
  lists : ∀ l : ListId, l.index < h.lists.size → (h.list l).context = c → h'.list l = h.list l
  own : ∀ l ∈ ls, h.lists.size ≤ l.index ∧ l.index < h'.lists.size ∧
    (h'.list l).context = c ∧ (h'.list l).clones = 1

namespace Made

variable {c : ContextId} {h h' h'' : Holdings} {ls ls' : List ListId}

theorem of_keepsContext (hs : h.KeepsContext c h') : Made c h h' [] where
  adds := by
    obtain ⟨failures, tag, hcontext⟩ := hs.context
    rw [hcontext]
    exact .still rfl rfl fun k => by cases k <;> rfl
  size := hs.size
  lists := hs.lists
  own _ hl := absurd hl List.not_mem_nil

theorem trans (h₁ : Made c h h' ls) (h₂ : Made c h' h'' ls') : Made c h h'' (ls ++ ls') := by
  have hkept (l : ListId) (hl : l ∈ ls) : h''.list l = h'.list l :=
    h₂.lists l (h₁.own l hl).2.1 (h₁.own l hl).2.2.1
  refine ⟨?_, Nat.le_trans h₁.size h₂.size, fun l hl hc => ?_, fun l hl => ?_⟩
  · have hslots : ls.map h''.slotOf = ls.map h'.slotOf :=
      List.map_congr_left fun l hl => by rw [slotOf, hkept l hl, slotOf]
    rw [List.map_append, hslots]
    exact h₁.adds.trans h₂.adds
  · have hl₁ := h₁.lists l hl hc
    rw [h₂.lists l (Nat.lt_of_lt_of_le hl h₁.size) (by rw [hl₁, hc]), hl₁]
  · rcases List.mem_append.1 hl with hl | hl
    · obtain ⟨hle, hlt, hc, h1⟩ := h₁.own l hl
      rw [hkept l hl]
      exact ⟨hle, Nat.lt_of_lt_of_le hlt h₂.size, hc, h1⟩
    · obtain ⟨hle, hlt, hc, h1⟩ := h₂.own l hl
      exact ⟨Nat.le_trans h₁.size hle, hlt, hc, h1⟩

theorem ready (hm : Made c h h' ls) (hr : (h.context c).Ready) : (h'.context c).Ready :=
  hm.adds.ready hr

theorem valid_of_ready (hr : (h.context c).Ready) : c.index < h.contexts.size :=
  valid_of_count (r := .context c) hr.alive

theorem enroll (hr : (h.context c).Ready) (k : ProxyKind) (r : ObjectRef) (key : Int64) :
    Made c h (h.enroll c k r key) [] where
  adds := by
    rw [enroll_context k r key (valid_of_ready hr), if_pos rfl]
    exact .enroll _ k r key
  size := Nat.le_refl _
  lists _ _ _ := rfl
  own _ hl := absurd hl List.not_mem_nil

theorem convert (hr : (h.context c).Ready) (v : Value) (length : Nat) :
    Made c h (h.convert c v length) [⟨h.lists.size⟩] := by
  have hsize : (h.convert c v length).lists.size = h.lists.size + 1 := Array.size_push _
  have hnew : (h.convert c v length).list ⟨h.lists.size⟩ =
      { context := c, handle := h.nextHandle c, length, clones := 1, origin := v } := by
    rw [convert_list, if_pos rfl]
  refine ⟨?_, ?_, fun l hl _ => ?_, fun l hl => ?_⟩
  · rw [convert_context v length (valid_of_ready hr), if_pos rfl, List.map_singleton, slotOf, hnew]
    exact .retain _ v
  · omega
  · rw [convert_list, if_neg (Nat.ne_of_lt hl)]
  · obtain rfl := List.mem_singleton.1 hl
    rw [hnew, hsize]
    exact ⟨Nat.le_refl _, Nat.lt_succ_self _, rfl, rfl⟩

/-- The only clone of a list goes, and the slot of the list with it. -/
theorem giveList_eq_emptied {l : ListId} {v : Value} (hr : (h.context c).Ready)
    (hc : (h.list l).context = c) (h1 : (h.list l).clones = 1)
    (hv : (h.context c).custodian.slots[h.slotOf l]? = some (some v)) :
    h.giveList false l = (h.adjust (· - 1) (.list l)).modifyContext c fun cx => { cx with
      custodian := { (h.context c).custodian with
        slots := (h.context c).custodian.slots.setIfInBounds (h.slotOf l) none } } := by
  have hcell : ((h.adjust (· - 1) (.list l)).list l).context = c ∧
      ((h.adjust (· - 1) (.list l)).list l).handle = (h.list l).handle := by
    rw [adjust, list_modifyList]
    split
    · exact ⟨hc, rfl⟩
    · exact ⟨hc, rfl⟩
  have hrelease := Custodian.release_of_holds hr.isOpen hv
  have hother : (h.adjust (· - 1) (.list l)).context c = h.context c := rfl
  rw [giveList_eq, if_pos (Nat.le_of_eq h1), releaseList, hcell.1, hcell.2, hother, if_neg]
  · rw [hrelease]
    rfl
  · rintro (h0 | hclosed)
    · exact hr.alive h0
    · rw [hr.isOpen] at hclosed
      cases hclosed

/-- The first of the lists is given up again. -/
theorem giveList {l : ListId} (hm : Made c h h' (l :: ls)) (hr : (h.context c).Ready)
    (hb : (h'.context c).custodian.slots.size ≤ 2 ^ 32) : Made c h (h'.giveList false l) ls := by
  have hr' := hm.ready hr
  obtain ⟨hn, hfresh⟩ := hm.adds.fresh hb
  obtain ⟨v, hv⟩ := Custodian.mem_occupied.1 (hfresh _ List.mem_cons_self).2
  obtain ⟨hle, _, hc, h1⟩ := hm.own l List.mem_cons_self
  rw [giveList_eq_emptied hr' hc h1 hv]
  have hsize : (h'.lists.modify l.index fun cell => { cell with clones := cell.clones - 1 }).size =
      h'.lists.size := Array.size_modify
  have hkept {m : ListId} (hm' : l ≠ m) : (h'.adjust (· - 1) (.list l)).list m = h'.list m := by
    rw [adjust, list_modifyList, if_neg fun hc => hm' hc.1]
  have hne {m : ListId} (hm' : m ∈ ls) : l ≠ m := by
    rintro rfl
    exact (List.nodup_cons.1 hn).1 (List.mem_map_of_mem hm')
  refine ⟨?_, ?_, fun m hlt hcm => ?_, fun m hm' => ?_⟩
  · rw [context_modifyContext, if_pos ⟨rfl, valid_of_ready hr'⟩]
    have hslots : ls.map h'.slotOf = ls.map (h'.adjust (· - 1) (.list l)).slotOf :=
      List.map_congr_left fun m hm' => by rw [slotOf, slotOf, hkept (hne hm')]
    have hreleased := Context.AddsSlots.release hm.adds hb
    rw [hslots] at hreleased
    exact hreleased
  · exact Nat.le_trans hm.size (Nat.le_of_eq hsize.symm)
  · change (h'.adjust (· - 1) (.list l)).list m = _
    rw [hkept (by rintro rfl; omega)]
    exact hm.lists m hlt hcm
  · have hown := hm.own m (List.mem_cons_of_mem l hm')
    change _ ∧ _ < (h'.lists.modify _ _).size ∧ ((h'.adjust (· - 1) (.list l)).list m).context = c ∧
      ((h'.adjust (· - 1) (.list l)).list m).clones = 1
    rw [hkept (hne hm'), hsize]
    exact hown

/-- The first lists are given up again, one after the other. -/
theorem giveLists (hm : Made c h h' (ls ++ ls')) (hr : (h.context c).Ready)
    (hb : (h'.context c).custodian.slots.size ≤ 2 ^ 32) : Made c h (h'.giveLists ls) ls' := by
  induction ls generalizing h' with
  | nil => exact hm
  | cons l rest ih =>
    refine ih (hm.giveList hr hb) ?_
    rw [giveList_slots_size]
    exact hb

end Made

end Holdings

end ProxySession
