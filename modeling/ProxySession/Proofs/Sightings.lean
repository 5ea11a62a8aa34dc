import Mathlib.Data.Finset.Card
import Mathlib.Data.Finset.Image
import ProxySession.Proofs.AddedSlots

/-!
# Sightings

A context that meets an object under a key adds an entry if the key has none, and retains the object for it.
What a whole row of sightings leaves in a context is told by the keys that had no entry before and by the
first object under each of them.
-/

namespace ProxySession

/-- An object with its identity key. -/
structure Sighting where
  object : ObjectRef
  key : Int64
deriving DecidableEq

namespace Context

variable {k : ProxyKind} {cx : Context} {ss : List Sighting} {s : Sighting} {key : Int64}
  {handle : HandleId}

/-- The context after it met an object under a key. -/
def sees (k : ProxyKind) (cx : Context) (s : Sighting) : Context :=
  match (cx.identities k).get? s.key with
  | some _ => cx
  | none => cx.enrolling k s.object s.key

/-- The context after a row of sightings. -/
def seesAll (k : ProxyKind) (cx : Context) (ss : List Sighting) : Context := ss.foldl (sees k) cx

/-- The keys of a row of sightings that a context has no entry under. -/
def newKeys (k : ProxyKind) (cx : Context) (ss : List Sighting) : Finset Int64 :=
  (ss.map Sighting.key).toFinset.filter fun key => (cx.identities k).get? key = none

theorem seesAll_concat (k : ProxyKind) (cx : Context) (ss : List Sighting) (s : Sighting) :
    cx.seesAll k (ss ++ [s]) = (cx.seesAll k ss).sees k s := List.foldl_concat ..

theorem sees_of_some (h : (cx.identities k).get? s.key = some handle) : cx.sees k s = cx := by
  rw [sees, h]

theorem sees_of_none (h : (cx.identities k).get? s.key = none) :
    cx.sees k s = cx.enrolling k s.object s.key := by
  rw [sees, h]

/-- An entry stays. -/
theorem seesAll_get?_of_some (h : (cx.identities k).get? key = some handle) (ss : List Sighting) :
    ((cx.seesAll k ss).identities k).get? key = some handle := by
  induction ss using List.reverseRecOn with
  | nil => exact h
  | append_singleton ss s ih =>
    rw [seesAll_concat]
    cases hs : ((cx.seesAll k ss).identities k).get? s.key with
    | some _ => rwa [sees_of_some hs]
    | none =>
      have hne : s.key ≠ key := by
        rintro rfl
        rw [ih] at hs
        cases hs
      rw [sees_of_none hs, enrolling_get? _ hs, if_neg fun hc => hne hc.2]
      exact ih

theorem seesAll_append (k : ProxyKind) (cx : Context) (ss ss' : List Sighting) :
    cx.seesAll k (ss ++ ss') = (cx.seesAll k ss).seesAll k ss' := List.foldl_append

/-- A key has no entry afterwards if it had none and was not seen. -/
theorem seesAll_get?_eq_none : ((cx.seesAll k ss).identities k).get? key = none ↔
    (cx.identities k).get? key = none ∧ key ∉ ss.map Sighting.key := by
  induction ss using List.reverseRecOn with
  | nil => simp [seesAll]
  | append_singleton ss s ih =>
    rw [seesAll_concat, List.map_append, List.mem_append, List.map_singleton, List.mem_singleton,
      not_or, ← and_assoc, ← ih]
    cases hs : ((cx.seesAll k ss).identities k).get? s.key with
    | some handle =>
      rw [sees_of_some hs]
      refine ⟨fun h => ⟨h, ?_⟩, And.left⟩
      rintro rfl
      rw [h] at hs
      cases hs
    | none =>
      rw [sees_of_none hs, enrolling_get? _ hs]
      by_cases hk : s.key = key
      · simp [hk]
      · simp [hk, Ne.symm hk]

theorem sees_slots_prefix (k : ProxyKind) (cx : Context) (s : Sighting) :
    ∃ new, (cx.sees k s).custodian.slots = cx.custodian.slots ++ new := by
  cases hs : (cx.identities k).get? s.key with
  | some _ => exact ⟨#[], by rw [sees_of_some hs, Array.append_empty]⟩
  | none =>
    refine ⟨#[some (.object s.object)], ?_⟩
    rw [sees_of_none hs, enrolling_custodian, Array.push_eq_append]

/-- Slots are only added. -/
theorem seesAll_slots_prefix (k : ProxyKind) (cx : Context) (ss : List Sighting) :
    ∃ new, (cx.seesAll k ss).custodian.slots = cx.custodian.slots ++ new := by
  induction ss using List.reverseRecOn with
  | nil => exact ⟨#[], Array.append_empty.symm⟩
  | append_singleton ss s ih =>
    obtain ⟨new, hnew⟩ := ih
    obtain ⟨new', hnew'⟩ := sees_slots_prefix k (cx.seesAll k ss) s
    exact ⟨new ++ new', by rw [seesAll_concat, hnew', hnew, Array.append_assoc]⟩

/-- What is retained for a new key is the first object under it. -/
theorem seesAll_made (hn : (cx.identities k).get? key = none)
    (hf : ss.find? (fun s => s.key == key) = some s) :
    ∃ i, cx.custodian.slots.size ≤ i ∧
      ((cx.seesAll k ss).identities k).get? key = some ⟨UInt32.ofNat i⟩ ∧
      (cx.seesAll k ss).custodian.slots[i]? = some (some (.object s.object)) := by
  induction ss using List.reverseRecOn with
  | nil => cases hf
  | append_singleton ss s' ih =>
    rw [List.find?_append] at hf
    rw [seesAll_concat]
    cases hbefore : ss.find? (fun s => s.key == key) with
    | some s₀ =>
      rw [hbefore] at hf
      obtain rfl := Option.some_inj.1 hf
      obtain ⟨i, hle, hget, hslot⟩ := ih hbefore
      obtain ⟨new, hnew⟩ := sees_slots_prefix k (cx.seesAll k ss) s'
      obtain ⟨hi, _⟩ := Array.getElem?_eq_some_iff.1 hslot
      refine ⟨i, hle, seesAll_get?_of_some hget [s'], ?_⟩
      rw [hnew, Array.getElem?_append_left hi]
      exact hslot
    | none =>
      rw [hbefore, Option.none_or, List.find?_singleton] at hf
      obtain ⟨hkey, hsame⟩ := Option.ite_none_right_eq_some.1 hf
      obtain rfl := Option.some_inj.1 hsame
      obtain rfl : s'.key = key := by simpa using hkey
      have hunseen : s'.key ∉ ss.map Sighting.key := by
        rw [List.find?_eq_none] at hbefore
        simpa using hbefore
      have hnone := seesAll_get?_eq_none.2 ⟨hn, hunseen⟩
      obtain ⟨new, hnew⟩ := seesAll_slots_prefix k cx ss
      refine ⟨(cx.seesAll k ss).custodian.slots.size, ?_, ?_, ?_⟩
      · rw [hnew, Array.size_append]
        exact Nat.le_add_right _ _
      · rw [sees_of_none hnone, enrolling_get? _ hnone, if_pos ⟨rfl, rfl⟩]
      · rw [sees_of_none hnone, enrolling_custodian]
        exact Array.getElem?_push_size

theorem newKeys_concat_of_some
    (h : ((cx.seesAll k ss).identities k).get? s.key = some handle) :
    cx.newKeys k (ss ++ [s]) = cx.newKeys k ss := by
  have hold : (cx.identities k).get? s.key = none → s.key ∈ ss.map Sighting.key := by
    intro hn
    by_contra hunseen
    rw [seesAll_get?_eq_none.2 ⟨hn, hunseen⟩] at h
    cases h
  ext key
  simp only [newKeys, Finset.mem_filter, List.mem_toFinset, List.map_append, List.mem_append,
    List.map_singleton, List.mem_singleton]
  constructor
  · rintro ⟨hseen | rfl, hn⟩
    · exact ⟨hseen, hn⟩
    · exact ⟨hold hn, hn⟩
  · exact fun ⟨hseen, hn⟩ => ⟨.inl hseen, hn⟩

theorem newKeys_concat_of_none
    (h : ((cx.seesAll k ss).identities k).get? s.key = none) :
    cx.newKeys k (ss ++ [s]) = insert s.key (cx.newKeys k ss) ∧ s.key ∉ cx.newKeys k ss := by
  obtain ⟨hn, hunseen⟩ := seesAll_get?_eq_none.1 h
  refine ⟨?_, fun hmem => hunseen (List.mem_toFinset.1 (Finset.mem_filter.1 hmem).1)⟩
  ext key
  simp only [newKeys, Finset.mem_filter, List.mem_toFinset, List.map_append, List.mem_append,
    List.map_singleton, List.mem_singleton, Finset.mem_insert]
  constructor
  · rintro ⟨hseen | rfl, hkey⟩
    · exact .inr ⟨hseen, hkey⟩
    · exact .inl rfl
  · rintro (rfl | ⟨hseen, hkey⟩)
    · exact ⟨.inr rfl, hn⟩
    · exact ⟨.inl hseen, hkey⟩

/-- Each new key makes an entry, and retains a handle. -/
theorem seesAll_counts (k : ProxyKind) (cx : Context) (ss : List Sighting) :
    ((cx.seesAll k ss).identities k).size = (cx.identities k).size + (cx.newKeys k ss).card ∧
    (cx.seesAll k ss).custodian.liveHandles =
      cx.custodian.liveHandles + (cx.newKeys k ss).card := by
  induction ss using List.reverseRecOn with
  | nil => exact ⟨rfl, rfl⟩
  | append_singleton ss s ih =>
    rw [seesAll_concat]
    cases hs : ((cx.seesAll k ss).identities k).get? s.key with
    | some handle =>
      rw [sees_of_some hs, newKeys_concat_of_some hs]
      exact ih
    | none =>
      obtain ⟨hkeys, hnew⟩ := newKeys_concat_of_none hs
      rw [sees_of_none hs, hkeys, Finset.card_insert_of_notMem hnew, enrolling_identities, if_pos rfl,
        IdentityMap.size, List.length_append, enrolling_custodian, Custodian.liveHandles_push, ih.2]
      exact ⟨by rw [List.length_singleton, ← IdentityMap.size, ih.1]; rfl, rfl⟩

/-- The context with other books on failures. -/
def booked (cx : Context) (failures : List HostFailure) (tag : Nat) : Context :=
  { cx with pending := failures, lastTag := tag }

@[simp] theorem booked_identities (cx : Context) (failures : List HostFailure) (tag : Nat)
    (k : ProxyKind) : (cx.booked failures tag).identities k = cx.identities k := by
  cases k <;> rfl

@[simp] theorem booked_custodian (cx : Context) (failures : List HostFailure) (tag : Nat) :
    (cx.booked failures tag).custodian = cx.custodian := rfl

/-- The books on failures have no part in sightings. -/
theorem sees_booked (k : ProxyKind) (cx : Context) (s : Sighting) (failures : List HostFailure)
    (tag : Nat) : (cx.booked failures tag).sees k s = (cx.sees k s).booked failures tag := by
  rw [sees, sees, booked_identities]
  cases (cx.identities k).get? s.key with
  | some handle => rfl
  | none => cases k <;> rfl

theorem Ready.sees (h : cx.Ready) (k : ProxyKind) (s : Sighting) : (cx.sees k s).Ready := by
  cases hs : (cx.identities k).get? s.key with
  | some handle => rwa [sees_of_some hs]
  | none =>
    rw [sees_of_none hs]
    exact (AddsSlots.enroll cx k s.object s.key).ready h

theorem Ready.seesAll (h : cx.Ready) (k : ProxyKind) (ss : List Sighting) :
    (cx.seesAll k ss).Ready := by
  induction ss using List.reverseRecOn with
  | nil => exact h
  | append_singleton ss s ih =>
    rw [seesAll_concat]
    exact ih.sees k s

/-- The context with another count of references. -/
def counted (cx : Context) (n : Nat) : Context := { cx with references := n }

theorem counted_identities (cx : Context) (n : Nat) (k : ProxyKind) :
    (cx.counted n).identities k = cx.identities k := by
  cases k <;> rfl

/-- The references have no part in sightings, either. -/
theorem sees_counted (k : ProxyKind) (cx : Context) (s : Sighting) (n : Nat) :
    (cx.counted n).sees k s = (cx.sees k s).counted n := by
  rw [sees, sees, counted_identities]
  cases (cx.identities k).get? s.key with
  | some handle => rfl
  | none => cases k <;> rfl

theorem seesAll_counted (k : ProxyKind) (cx : Context) (ss : List Sighting) (n : Nat) :
    (cx.counted n).seesAll k ss = (cx.seesAll k ss).counted n := by
  induction ss using List.reverseRecOn with
  | nil => rfl
  | append_singleton ss s ih => rw [seesAll_concat, seesAll_concat, ih, sees_counted]

/-! ## What stays -/

/-- What a new entry leaves as it is, a row of sightings leaves as it is. -/
theorem seesAll_frame {β : Type} (f : Context → β)
    (hf : ∀ (cx : Context) (r : ObjectRef) (key : Int64), f (cx.enrolling k r key) = f cx) (cx : Context)
    (ss : List Sighting) : f (cx.seesAll k ss) = f cx := by
  induction ss using List.reverseRecOn with
  | nil => rfl
  | append_singleton ss s ih =>
    rw [seesAll_concat, ← ih]
    cases hs : ((cx.seesAll k ss).identities k).get? s.key with
    | some handle => rw [sees_of_some hs]
    | none => rw [sees_of_none hs, hf]

theorem seesAll_references (k : ProxyKind) (cx : Context) (ss : List Sighting) :
    (cx.seesAll k ss).references = cx.references :=
  seesAll_frame Context.references (fun _ _ _ => by cases k <;> rfl) cx ss

theorem seesAll_nodeId (k : ProxyKind) (cx : Context) (ss : List Sighting) :
    (cx.seesAll k ss).nodeId = cx.nodeId :=
  seesAll_frame Context.nodeId (fun _ _ _ => by cases k <;> rfl) cx ss

theorem seesAll_kinds (k : ProxyKind) (cx : Context) (ss : List Sighting) :
    (cx.seesAll k ss).kinds = cx.kinds :=
  seesAll_frame Context.kinds (fun _ _ _ => by cases k <;> rfl) cx ss

theorem seesAll_identities_of_ne {k' : ProxyKind} (hk : k ≠ k') (cx : Context) (ss : List Sighting) :
    (cx.seesAll k ss).identities k' = cx.identities k' :=
  seesAll_frame (Context.identities · k')
    (fun cx r key => (enrolling_identities cx k r key k').trans (if_neg hk)) cx ss

theorem seesAll_slot {i : Nat} {v : Value} (h : cx.custodian.slots[i]? = some (some v)) (k : ProxyKind)
    (ss : List Sighting) : (cx.seesAll k ss).custodian.slots[i]? = some (some v) := by
  obtain ⟨new, hnew⟩ := seesAll_slots_prefix k cx ss
  obtain ⟨hi, _⟩ := Array.getElem?_eq_some_iff.1 h
  rw [hnew, Array.getElem?_append_left hi, h]

theorem seesAll_slots_size (k : ProxyKind) (cx : Context) (ss : List Sighting) :
    (cx.seesAll k ss).custodian.slots.size ≤ cx.custodian.slots.size + ss.length := by
  induction ss using List.reverseRecOn with
  | nil => exact Nat.le_refl _
  | append_singleton ss s ih =>
    rw [seesAll_concat, List.length_append, List.length_singleton]
    cases hs : ((cx.seesAll k ss).identities k).get? s.key with
    | some handle =>
      rw [sees_of_some hs]
      omega
    | none =>
      rw [sees_of_none hs, enrolling_custodian, Array.size_push]
      omega

/-! ## What is cached -/

/-- What a context holds for a key, if it has an entry there. -/
def cached (cx : Context) (k : ProxyKind) (key : Int64) : Option (Except LifetimeError Value) :=
  ((cx.identities k).get? key).map cx.custodian.get

/-- Each entry names a slot that holds something. -/
def Holds (cx : Context) : Prop :=
  ∀ k key handle, (cx.identities k).get? key = some handle →
    ∃ v, cx.custodian.slots[handle.index.toNat]? = some (some v)

theorem cached_of_some {v : Value} (ho : cx.custodian.closed = false)
    (hget : (cx.identities k).get? key = some handle)
    (hslot : cx.custodian.slots[handle.index.toNat]? = some (some v)) :
    cx.cached k key = some (.ok v) := by
  rw [cached, hget, Option.map_some, Custodian.get_of_holds ho hslot]

/-- After a row of sightings a context holds what it held, and for a new key the first object under it. -/
theorem cached_seesAll (hr : cx.Ready) (hholds : cx.Holds)
    (hsize : cx.custodian.slots.size + ss.length ≤ 2 ^ 32) (k k' : ProxyKind) (key : Int64) :
    (cx.seesAll k ss).cached k' key = (cx.cached k' key).or
      (if k = k' then (ss.find? fun s => s.key == key).map fun s => .ok (.object s.object) else none) := by
  have ho := (hr.seesAll k ss).isOpen
  cases hget : (cx.identities k').get? key with
  | some handle =>
    obtain ⟨v, hslot⟩ := hholds k' key handle hget
    have hget' : ((cx.seesAll k ss).identities k').get? key = some handle := by
      by_cases hk : k = k'
      · subst hk
        exact seesAll_get?_of_some hget ss
      · rw [seesAll_identities_of_ne hk, hget]
    rw [cached_of_some hr.isOpen hget hslot, cached_of_some ho hget' (seesAll_slot hslot k ss)]
    rfl
  | none =>
    rw [cached, cached, hget, Option.map_none, Option.none_or]
    by_cases hk : k = k'
    · subst hk
      rw [if_pos rfl]
      cases hfind : ss.find? fun s => s.key == key with
      | none =>
        have hunseen : key ∉ ss.map Sighting.key := by
          rw [List.find?_eq_none] at hfind
          simpa using hfind
        rw [seesAll_get?_eq_none.2 ⟨hget, hunseen⟩]
        rfl
      | some s =>
        obtain ⟨i, _, hmade, hslot⟩ := seesAll_made hget hfind
        have hle := seesAll_slots_size k cx ss
        obtain ⟨hi, _⟩ := Array.getElem?_eq_some_iff.1 hslot
        have hnat : (UInt32.ofNat i).toNat = i :=
          UInt32.toNat_ofNat_of_lt' (by rw [UInt32.size]; omega)
        rw [hmade, Option.map_some, Custodian.get_of_holds ho (by rw [hnat]; exact hslot)]
        rfl
    · rw [if_neg hk, seesAll_identities_of_ne hk, hget]
      rfl

/-- After a row of sightings a context holds something for each key in it. -/
theorem cached_of_mem (hr : cx.Ready) (hholds : cx.Holds)
    (hsize : cx.custodian.slots.size + ss.length ≤ 2 ^ 32) (hs : s ∈ ss) :
    ∃ v, (cx.seesAll k ss).cached k s.key = some (.ok v) := by
  rw [cached_seesAll hr hholds hsize, if_pos rfl]
  cases hget : (cx.identities k).get? s.key with
  | some handle =>
    obtain ⟨v, hslot⟩ := hholds k s.key handle hget
    exact ⟨v, by rw [cached_of_some hr.isOpen hget hslot]; rfl⟩
  | none =>
    have hfind : (ss.find? fun s' => s'.key == s.key).isSome = true :=
      List.find?_isSome.2 ⟨s, hs, beq_self_eq_true _⟩
    obtain ⟨s', hs'⟩ := Option.isSome_iff_exists.1 hfind
    exact ⟨.object s'.object, by rw [cached, hget, hs']; rfl⟩

@[simp] theorem booked_cached (cx : Context) (failures : List HostFailure) (tag : Nat) (k : ProxyKind)
    (key : Int64) : (cx.booked failures tag).cached k key = cx.cached k key := by
  rw [cached, booked_identities]
  rfl

end Context

end ProxySession
