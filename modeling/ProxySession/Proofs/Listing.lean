import ProxySession.Proofs.ConversionAccounts
import ProxySession.Proofs.Outlooks
import ProxySession.Proofs.Sightings
import ProxySession.Proofs.Visits

/-!
# Listing through the identity map

The conversion of an array to proxies finds an object with its key at each index, or stops. What it found up
to some index is all that the context takes note of, and the index that stops it is the last one that it
looks at.
-/

namespace ProxySession

open Effect

variable {p : Crossing → Bool} {c : ContextId} {k : ProxyKind} {r : ObjectRef} {E : Engine}
  {w w' w₁ : World}

namespace ContextId

/-- What a list conversion finds at an index: the object there, with its key. -/
def sight (c : ContextId) (k : ProxyKind) (r : ObjectRef) (i : Nat) : Operation Sighting := do
  let v ← c.element r i
  if v.isAbsent then
    fail .missingValue
  else
    let o ← Operation.object k.name v
    let key ← c.identityKey k o
    pure ⟨o, key⟩

/-- Resolves what is found at an index. -/
def lookUp (c : ContextId) (k : ProxyKind) (r : ObjectRef) (i : Nat) : Operation (Proxy k) := do
  let s ← c.sight k r i
  c.settle k s.object s.key

/-- Lists the first elements of an array. -/
def listing (c : ContextId) (k : ProxyKind) (r : ObjectRef) (n : Nat) : Operation (List (Proxy k)) :=
  Conversion.elements c (fun _ w => w) (c.toProxy k) r n 0

/-- What is found at an index after the elements before it were listed. -/
def found (c : ContextId) (k : ProxyKind) (r : ObjectRef) (E : Engine) (w : World) (i : Nat) :
    Except (Stop SessionError) Sighting × World :=
  c.sight k r i E (c.listing k r i E w).2

/-- The conversion of an element finds something, and settles which proxy stands for it. -/
theorem element_required (c : ContextId) (k : ProxyKind) (r : ObjectRef) (i : Nat) :
    (c.element r i >>= (c.toProxy k).required) = c.lookUp k r i := by
  rw [lookUp, sight, bind_assoc]
  congr 1
  funext v
  rw [Conversion.required]
  split
  · rfl
  · cases v with
    | object o =>
      have hassoc := bind_assoc (c.identityKey k o) (fun key => pure (⟨o, key⟩ : Sighting))
        fun s => c.settle k s.object s.key
      exact hassoc.symm
    | _ => rfl

theorem listStep_eq (c : ContextId) (k : ProxyKind) (r : ObjectRef) (i : Nat) :
    Conversion.listStep c (c.toProxy k) r i = (c.lookUp k r i).located (Conversion.elementSite i) :=
  congrArg (Effect.located _) (element_required c k r i)

theorem lookUp_outlook (i : Nat) (E : Engine) (w : World) :
    (c.lookUp k r i E w).2.outlook = (c.sight k r i E w).2.outlook := by
  rw [lookUp]
  rcases hrun : c.sight k r i E w with ⟨stop | s, w₁⟩
  · rw [bind_of_error hrun]
  · rw [bind_of_ok hrun]
    exact settle_unseen s.object s.key E w₁

theorem sight_keepsUnless (hE : E.Obeys (World.KeepsUnless p c)) (i : Nat) (w : World) :
    w.KeepsUnless p c (c.sight k r i E w).2 := by
  have helement := c.element_nonRetaining r i _ (World.KeepsUnless.contextRegime p c) E hE w
  rw [sight]
  rcases hrun : c.element r i E w with ⟨s | v, w₁⟩
  · rw [hrun] at helement
    rw [bind_of_error hrun]
    exact helement
  · rw [hrun] at helement
    rw [bind_of_ok hrun]
    cases v with
    | object o =>
      have hkey := identityKey_keepsUnless (c := c) hE k o w₁
      change w.KeepsUnless p c ((c.identityKey k o >>= fun key => pure (⟨o, key⟩ : Sighting)) E w₁).2
      rcases hidentity : c.identityKey k o E w₁ with ⟨s | key, w₂⟩
      · rw [hidentity] at hkey
        rw [bind_of_error hidentity]
        exact helement.trans hkey
      · rw [hidentity] at hkey
        rw [bind_of_ok hidentity]
        exact helement.trans hkey
    | _ => exact helement

/-- Where the context is open, settling takes note of a sighting. -/
theorem settle_sees (hr : (w.context c).Ready) (s : Sighting) (E : Engine) :
    ∃ handle w', c.settle k s.object s.key E w = (.ok ⟨c, s.key, handle⟩, w') ∧
      w'.context c = (w.context c).sees k s ∧
      (((w.context c).sees k s).identities k).get? s.key = some handle := by
  obtain ⟨handle, w', hs, hrun, hw⟩ | ⟨_, hc, _⟩ | ⟨w', hs, _, hrun, hw⟩ :=
    settle_cases c k s.object s.key E w
  · refine ⟨handle, w', hrun, ?_, ?_⟩
    · rw [Context.sees_of_some hs, hw.holdings]
      rfl
    · rw [Context.sees_of_some hs, hs]
  · rw [hr.isOpen] at hc
    cases hc
  · refine ⟨w.nextHandle c, w', hrun, ?_, ?_⟩
    · rw [Context.sees_of_none hs, hw.holdings,
        Holdings.enroll_context k s.object s.key (Holdings.Made.valid_of_ready hr), if_pos rfl]
    · rw [Context.sees_of_none hs, Context.enrolling_get? _ hs, if_pos ⟨rfl, rfl⟩]
      rfl

/-! ## Steps and their sightings -/

theorem listing_visits (c : ContextId) (k : ProxyKind) (r : ObjectRef) (n : Nat) (E : Engine)
    (w : World) : Visits (Conversion.listStep c (c.toProxy k) r) E w n (c.listing k r n E w) :=
  Conversion.elements_visits (fun _ _ _ _ _ _ => rfl) E w n

/-- What the first steps reach is what listing the first elements reaches. -/
theorem listing_of_visited {ps : List (Proxy k)}
    (hv : Visited (Conversion.listStep c (c.toProxy k) r) E w ps w₁) :
    c.listing k r ps.length E w = (.ok ps, w₁) :=
  (listing_visits c k r ps.length E w).unique (.done hv rfl)

theorem step_tally (hE : E.Obeys (World.KeepsUnless p c)) (i : Nat) (w : World) :
    w.tally p ≤ (Conversion.listStep c (c.toProxy k) r i E w).2.tally p := by
  have hstep : (Conversion.listStep c (c.toProxy k) r i).Accounted p c False fun _ => [] :=
    .located _ (.bind (Accounted.of_nonRetaining (c.element_nonRetaining r i)) fun v =>
      Conversion.required_accounted (c.resolve_accounted k) v)
  exact hstep.tally hE w

theorem visited_tally (hE : E.Obeys (World.KeepsUnless p c)) {ps : List (Proxy k)}
    (hv : Visited (Conversion.listStep c (c.toProxy k) r) E w ps w₁) : w.tally p ≤ w₁.tally p :=
  hv.monotone (step_tally hE)

/-- What the context holds after some sightings, but for its books on failures. -/
def Took (c : ContextId) (k : ProxyKind) (w : World) (ss : List Sighting) (w' : World) : Prop :=
  ∃ failures tag, w'.context c = ((w.context c).seesAll k ss).booked failures tag

theorem Took.of_keepsUnless {ss : List Sighting} (ht : c.Took k w ss w₁) (hd : w₁.KeepsUnless p c w')
    (he : w'.tally p = w₁.tally p) : c.Took k w ss w' := by
  obtain ⟨failures, tag, hcontext⟩ := ht
  obtain ⟨failures', tag', hspared⟩ := (hd.keepsContext he).context
  exact ⟨failures', tag', by rw [hspared, hcontext]; rfl⟩

theorem Took.ready {ss : List Sighting} (ht : c.Took k w ss w₁) (hr : (w.context c).Ready) :
    (w₁.context c).Ready := by
  obtain ⟨failures, tag, hcontext⟩ := ht
  have hall := hr.seesAll k ss
  rw [hcontext]
  exact ⟨hall.isOpen, hall.alive⟩

theorem Took.same {ss : List Sighting} (h : c.Took k w ss w') (h₁ : c.Took k w ss w₁) :
    (∀ k', (w'.context c).identities k' = (w₁.context c).identities k') ∧
      (w'.context c).custodian = (w₁.context c).custodian := by
  obtain ⟨failures, tag, hcontext⟩ := h
  obtain ⟨failures₁, tag₁, hcontext₁⟩ := h₁
  rw [hcontext, hcontext₁]
  exact ⟨fun k' => by rw [Context.booked_identities, Context.booked_identities], rfl⟩

/-- Looking something up in an open context takes note of what is found, or stops as the search does. -/
theorem lookUp_cases (hE : E.Obeys (World.KeepsUnless p c)) {ss : List Sighting}
    (hr : (w.context c).Ready) (ht : c.Took k w ss w₁) (i : Nat)
    (he : (c.lookUp k r i E w₁).2.tally p = w₁.tally p) :
    (∃ s handle w₂, (c.sight k r i E w₁).1 = .ok s ∧
      c.lookUp k r i E w₁ = (.ok ⟨c, s.key, handle⟩, w₂) ∧ c.Took k w (ss ++ [s]) w₂ ∧
      (((w.context c).seesAll k (ss ++ [s])).identities k).get? s.key = some handle) ∨
    ∃ stop w₂, c.sight k r i E w₁ = (.error stop, w₂) ∧
      c.lookUp k r i E w₁ = (.error stop, w₂) ∧ c.Took k w ss w₂ := by
  have hsight := sight_keepsUnless (c := c) (k := k) (r := r) hE i w₁
  rw [World.tally_of_outlook (lookUp_outlook i E w₁)] at he
  rcases hfound : c.sight k r i E w₁ with ⟨stop | s, w₂⟩
  · rw [hfound] at hsight he
    exact .inr ⟨stop, w₂, rfl, bind_of_error hfound, ht.of_keepsUnless hsight he⟩
  · rw [hfound] at hsight he
    have ht₂ : c.Took k w ss w₂ := ht.of_keepsUnless hsight he
    have hready : (w₂.context c).Ready := ht₂.ready hr
    obtain ⟨failures, tag, hbooked⟩ := ht₂
    obtain ⟨handle, w₃, hrun, hcontext, hget⟩ := settle_sees (k := k) hready s E
    rw [hbooked, Context.sees_booked, ← Context.seesAll_concat] at hcontext hget
    refine .inl ⟨s, handle, w₃, rfl, (bind_of_ok hfound).trans hrun, ⟨failures, tag, hcontext⟩, ?_⟩
    rwa [Context.booked_identities] at hget

/-- The step of a list conversion does, too. -/
theorem step_cases (hE : E.Obeys (World.KeepsUnless p c)) {ss : List Sighting} (hr : (w.context c).Ready)
    (ht : c.Took k w ss w₁) (i : Nat)
    (he : (Conversion.listStep c (c.toProxy k) r i E w₁).2.tally p = w₁.tally p) :
    (∃ s handle w₂, (c.sight k r i E w₁).1 = .ok s ∧
      Conversion.listStep c (c.toProxy k) r i E w₁ = (.ok ⟨c, s.key, handle⟩, w₂) ∧
      c.Took k w (ss ++ [s]) w₂ ∧
      (((w.context c).seesAll k (ss ++ [s])).identities k).get? s.key = some handle) ∨
    ∃ stop w₂, c.sight k r i E w₁ = (.error stop, w₂) ∧
      Conversion.listStep c (c.toProxy k) r i E w₁ =
        (.error (stop.map (.located (Conversion.elementSite i))), w₂) ∧ c.Took k w ss w₂ := by
  rw [listStep_eq, located_eq] at he ⊢
  refine (lookUp_cases hE hr ht i he).imp ?_ ?_
  · rintro ⟨s, handle, w₂, hsight, hrun, htook, hget⟩
    exact ⟨s, handle, w₂, hsight, by rw [hrun]; rfl, htook, hget⟩
  · rintro ⟨stop, w₂, hsight, hrun, htook⟩
    exact ⟨stop, w₂, hsight, by rw [hrun]; rfl, htook⟩

/-- The proxies stand for the keys of a row of sightings. -/
structure Stand (c : ContextId) (k : ProxyKind) (cx : Context) (ss : List Sighting) (ps : List (Proxy k)) :
    Prop where
  length : ps.length = ss.length
  proxies : ∀ i (hi : i < ss.length), ∃ handle, ps[i]? = some ⟨c, ss[i].key, handle⟩ ∧
    ((cx.seesAll k ss).identities k).get? ss[i].key = some handle

theorem Stand.concat {cx : Context} {ss : List Sighting} {ps : List (Proxy k)} {s : Sighting}
    {handle : HandleId} (h : c.Stand k cx ss ps)
    (hget : ((cx.seesAll k (ss ++ [s])).identities k).get? s.key = some handle) :
    c.Stand k cx (ss ++ [s]) (ps ++ [⟨c, s.key, handle⟩]) where
  length := by rw [List.length_append, List.length_append, h.length]; rfl
  proxies := by
    refine forall_getElem_concat (P := fun i (t : Sighting) => ∃ handle',
      (ps ++ [⟨c, s.key, handle⟩])[i]? = some ⟨c, t.key, handle'⟩ ∧
        ((cx.seesAll k (ss ++ [s])).identities k).get? t.key = some handle') (fun i hi => ?_) ?_
    · obtain ⟨handle', hp, hget'⟩ := h.proxies i hi
      rw [List.getElem?_append_left (hi.trans_eq h.length.symm), Context.seesAll_append]
      exact ⟨handle', hp, Context.seesAll_get?_of_some hget' [s]⟩
    · rw [← h.length, List.getElem?_concat_length]
      exact ⟨handle, rfl, hget⟩

/-- How the sightings of the steps, the proxies and the context are related. -/
structure Lists (c : ContextId) (k : ProxyKind) (r : ObjectRef) (E : Engine) (w : World)
    (ss : List Sighting) (ps : List (Proxy k)) (w' : World) : Prop
    extends c.Stand k (w.context c) ss ps where
  found : ∀ i (hi : i < ss.length), (c.found k r E w i).1 = .ok ss[i]
  took : c.Took k w ss w'

/-- One more step. -/
theorem Lists.concat {ss : List Sighting} {ps : List (Proxy k)} {s : Sighting} {handle : HandleId}
    (h : c.Lists k r E w ss ps w₁) (hv : Visited (Conversion.listStep c (c.toProxy k) r) E w ps w₁)
    (hsight : (c.sight k r ps.length E w₁).1 = .ok s) (htook : c.Took k w (ss ++ [s]) w')
    (hget : (((w.context c).seesAll k (ss ++ [s])).identities k).get? s.key = some handle) :
    c.Lists k r E w (ss ++ [s]) (ps ++ [⟨c, s.key, handle⟩]) w' where
  toStand := h.toStand.concat hget
  found := by
    refine forall_getElem_concat (P := fun i s => (c.found k r E w i).1 = .ok s) h.found ?_
    rw [ContextId.found, ← h.length, listing_of_visited hv]
    exact hsight
  took := htook

/-- Whatever steps were run, they found something each, and the context took note of that. -/
theorem visited_lists (hE : E.Obeys (World.KeepsUnless p c)) (hr : (w.context c).Ready)
    {ps : List (Proxy k)} (hv : Visited (Conversion.listStep c (c.toProxy k) r) E w ps w')
    (he : w'.tally p = w.tally p) : ∃ ss, c.Lists k r E w ss ps w' := by
  induction hv with
  | start => exact ⟨[], ⟨rfl, nofun⟩, nofun, _, _, rfl⟩
  | @next ps w₁ q w₂ hv hstep ih =>
    have hle := step_tally (k := k) (r := r) hE ps.length w₁
    rw [hstep] at hle
    have he₁ : w₁.tally p = w.tally p := Nat.le_antisymm (hle.trans_eq he) (visited_tally hE hv)
    obtain ⟨ss, hlists⟩ := ih he₁
    have hnext := step_cases (k := k) (r := r) hE hr hlists.took ps.length
      (by rw [hstep, he, he₁])
    rw [hstep] at hnext
    obtain ⟨s, handle, w₃, hsight, hrun, htook, hget⟩ | ⟨stop, w₃, _, hrun, _⟩ := hnext
    · cases hrun
      exact ⟨ss ++ [s], hlists.concat hv hsight htook hget⟩
    · cases hrun

/-! ## Whole lists -/

/-- What became of a row of sightings that was listed: the proxies stand for the entries from before, and
else for the first object under each key, which is retained once. -/
structure Listed (c : ContextId) (k : ProxyKind) (w : World) (ss : List Sighting) (ps : List (Proxy k))
    (w' : World) : Prop where
  length : ps.length = ss.length
  same : ∀ i j (hi : i < ss.length) (hj : j < ss.length),
    ps[i]? = ps[j]? ↔ ss[i].key = ss[j].key
  cached : ∀ i (hi : i < ss.length) handle,
    ((w.context c).identities k).get? ss[i].key = some handle → ps[i]? = some ⟨c, ss[i].key, handle⟩
  made : ∀ i (hi : i < ss.length), ((w.context c).identities k).get? ss[i].key = none →
    ∃ s slot, ss.find? (fun s => s.key == ss[i].key) = some s ∧
      ps[i]? = some ⟨c, ss[i].key, ⟨UInt32.ofNat slot⟩⟩ ∧
      (w.context c).custodian.slots.size ≤ slot ∧
      (w'.context c).custodian.slots[slot]? = some (some (.object s.object)) ∧
      ((w'.context c).custodian.slots.size ≤ 2 ^ 32 →
        (w'.context c).custodian.get ⟨UInt32.ofNat slot⟩ = .ok (.object s.object))
  entries : ((w'.context c).identities k).size =
    ((w.context c).identities k).size + ((w.context c).newKeys k ss).card
  handles : (w'.context c).custodian.liveHandles =
    (w.context c).custodian.liveHandles + ((w.context c).newKeys k ss).card

theorem Lists.listed {ss : List Sighting} {ps : List (Proxy k)} (h : c.Lists k r E w ss ps w')
    (hr : (w.context c).Ready) : c.Listed k w ss ps w' := by
  obtain ⟨hentries, hhandles⟩ := (w.context c).seesAll_counts k ss
  have hopen := (h.took.ready hr).isOpen
  obtain ⟨failures, tag, hcontext⟩ := h.took
  refine ⟨h.length, fun i j hi hj => ?_, fun i hi handle hcached => ?_, fun i hi hnew => ?_, ?_, ?_⟩
  · obtain ⟨handle, hp, hget⟩ := h.proxies i hi
    obtain ⟨handle', hp', hget'⟩ := h.proxies j hj
    rw [hp, hp', Option.some_inj]
    refine ⟨congrArg Proxy.key, fun hkey => ?_⟩
    rw [hkey, hget'] at hget
    cases hget
    rw [hkey]
  · obtain ⟨handle', hp, hget⟩ := h.proxies i hi
    rw [Context.seesAll_get?_of_some hcached] at hget
    cases hget
    exact hp
  · obtain ⟨handle, hp, hget⟩ := h.proxies i hi
    have hfind : (ss.find? fun s => s.key == ss[i].key).isSome = true :=
      List.find?_isSome.2 ⟨ss[i], List.getElem_mem hi, beq_self_eq_true _⟩
    obtain ⟨s, hs⟩ := Option.isSome_iff_exists.1 hfind
    obtain ⟨slot, hle, hmade, hslot⟩ := Context.seesAll_made hnew hs
    rw [hmade] at hget
    cases hget
    rw [← Context.booked_custodian _ failures tag, ← hcontext] at hslot
    refine ⟨s, slot, hs, hp, hle, hslot, fun hsize => Custodian.get_of_holds hopen ?_⟩
    obtain ⟨hlt, _⟩ := Array.getElem?_eq_some_iff.1 hslot
    have hnat : (UInt32.ofNat slot).toNat = slot :=
      UInt32.toNat_ofNat_of_lt' (by rw [UInt32.size]; omega)
    rw [hnat]
    exact hslot
  · rw [hcontext, Context.booked_identities, hentries]
  · rw [hcontext, Context.booked_custodian, hhandles]

/-- How listing an array ends. If something is found at each index, all of it is listed. Otherwise the first
index where nothing is found ends it: nothing is looked at after that, and the context holds what it holds
once the elements before are listed. -/
structure ListingEnds (c : ContextId) (k : ProxyKind) (r : ObjectRef) (length : Nat) (E : Engine)
    (w : World) (run : Except (Stop SessionError) (List (Proxy k)) × World) : Prop where
  all : (∀ i < length, ∃ s, (c.found k r E w i).1 = .ok s) →
    ∃ ss ps w', ss.length = length ∧
      (∀ i (hi : i < ss.length), (c.found k r E w i).1 = .ok ss[i]) ∧
      run = (.ok ps, w') ∧ c.Listed k w ss ps w'
  first : ∀ i < length, (∀ j < i, ∃ s, (c.found k r E w j).1 = .ok s) →
    ∀ stop w', c.found k r E w i = (.error stop, w') →
      run = (.error (stop.map (.located (Conversion.elementSite i))), w') ∧
      ∃ ps w₀, c.listing k r i E w = (.ok ps, w₀) ∧
        (∀ k', (w'.context c).identities k' = (w₀.context c).identities k') ∧
        (w'.context c).custodian = (w₀.context c).custodian

theorem listing_ends (hE : E.Obeys (World.KeepsUnless p c)) (hr : (w.context c).Ready) {length : Nat}
    {run : Except (Stop SessionError) (List (Proxy k)) × World}
    (hv : Visits (Conversion.listStep c (c.toProxy k) r) E w length run)
    (he : run.2.tally p = w.tally p) : c.ListingEnds k r length E w run := by
  cases hv with
  | done hv hn =>
    obtain ⟨ss, hlists⟩ := visited_lists hE hr hv he
    have hlength := hlists.length.symm.trans hn
    refine ⟨fun _ => ⟨ss, _, _, hlength, hlists.found, rfl, hlists.listed hr⟩,
      fun i hi _ stop w' hstop => ?_⟩
    have hfound := hlists.found i (hi.trans_eq hlength.symm)
    rw [hstop] at hfound
    cases hfound
  | @stopped ps w₁ stop w₂ hv hlt hstop =>
    have hle := step_tally (k := k) (r := r) hE ps.length w₁
    rw [hstop] at hle
    have he₁ : w₁.tally p = w.tally p := Nat.le_antisymm (hle.trans_eq he) (visited_tally hE hv)
    obtain ⟨ss, hlists⟩ := visited_lists hE hr hv he₁
    -- The last step adds nothing to the tally either, so it finds what is found there from `w` on.
    have hlast := step_cases (k := k) (r := r) hE hr hlists.took ps.length
      (by rw [hstop, he₁]; exact he)
    rw [hstop] at hlast
    obtain ⟨_, _, _, _, hrun, _⟩ | ⟨stop', w₃, hsight, hrun, htook⟩ := hlast
    · cases hrun
    have hfound : c.found k r E w ps.length = (.error stop', w₃) := by
      rw [found, listing_of_visited hv, hsight]
    refine ⟨fun hall => ?_, fun i hi hbefore stop'' w' hstop'' => ?_⟩
    · obtain ⟨s, hs⟩ := hall ps.length hlt
      rw [hfound] at hs
      cases hs
    -- The first sighting that fails is the one the loop stops at: those before it succeed.
    · rcases Nat.lt_trichotomy i ps.length with hlt' | rfl | hgt
      · have hok := hlists.found i (hlt'.trans_eq hlists.length)
        rw [hstop''] at hok
        cases hok
      · rw [hfound] at hstop''
        cases hstop''
        cases hrun
        exact ⟨rfl, ps, w₁, listing_of_visited hv, htook.same hlists.took⟩
      · obtain ⟨s, hs⟩ := hbefore ps.length hgt
        rw [hfound] at hs
        cases hs

theorem toProxies_visits {length : Nat} (hlength : w.heap.arrayLength? (.object r) = some length)
    (k : ProxyKind) (E : Engine) : Visits (Conversion.listStep c (c.toProxy k) r) E w length
      (c.toProxies k (.object r) E w) := by
  have hrun : c.toProxies k (.object r) E w = c.listing k r length E w :=
    bind_of_ok (Conversion.toArray_of_array hlength)
  rw [hrun]
  exact listing_visits c k r length E w

/-- The described conversion to a list of proxies lists an array, too. -/
theorem convert_list_proxy (c : ContextId) (k : ProxyKind) (v : Value) :
    (Conv.list (.proxy k)).convert c v = Item.proxies <$> c.toProxies k v := by
  have helements (r : ObjectRef) (n : Nat) :
      Conversion.elements c World.drop ((Conv.proxy k).convert c) r n 0 =
        List.map Item.proxy <$> c.listing k r n := by
    have hlisting : c.listing k r n =
        collect (Conversion.listStep c (c.toProxy k) r) (List.range' 0 n) :=
      Conversion.elements_eq_collect (fun _ _ _ _ _ _ => rfl) n 0
    rw [hlisting, Conversion.elements_eq_collect (fun i E w item w' h => ?_)]
    · rw [← collect_map]
      congr 1
      funext i
      exact Conversion.listStep_map Item.proxy (c.toProxy k) r i
    · obtain ⟨_, _, _, _, hconvert⟩ := Conversion.listStep_ok h
      obtain ⟨q, _, rfl⟩ := map_ok hconvert
      exact World.drop_of_references rfl
  funext E w
  refine (map_eq _ _ E w).trans ?_
  rw [map_eq, Conversion.listOf, ContextId.toProxies, Conversion.plainList, Conversion.listOf]
  rcases harray : Conversion.toArray v E w with ⟨s | ⟨r, n⟩, w₁⟩
  · rw [bind_of_error harray, bind_of_error harray]
    rfl
  · rw [bind_of_ok harray, bind_of_ok harray]
    have hmapped := congrFun (congrFun (helements r n) E) w₁
    rw [map_eq] at hmapped
    change (Except.map Item.list (Conversion.elements c World.drop ((Conv.proxy k).convert c) r n 0 E w₁).1,
      (Conversion.elements c World.drop ((Conv.proxy k).convert c) r n 0 E w₁).2) =
        (Except.map Item.proxies (c.listing k r n E w₁).1, (c.listing k r n E w₁).2)
    rw [hmapped]
    rcases c.listing k r n E w₁ with ⟨s | ps, w₂⟩ <;> rfl

/-- The conversion to a list of proxies lists an array. In an open context, that ends in this way, if the
foreign code leaves the context alone: for any engine whose functions do, and for a run in which no host
function that runs steps is called. -/
theorem toProxies_listed (c : ContextId) (k : ProxyKind) (r : ObjectRef) (length : Nat) :
    (∀ v, (Conv.list (.proxy k)).convert c v = Item.proxies <$> c.toProxies k v) ∧
    (∀ E : Engine, E.KeepsContext c → ∀ w : World, (w.context c).Ready →
      w.heap.arrayLength? (.object r) = some length →
        c.ListingEnds k r length E w (c.toProxies k (.object r) E w)) ∧
    ∀ (n room : Nat) (w : World), (w.context c).Ready →
      w.heap.arrayLength? (.object r) = some length →
        (c.toProxies k (.object r) (Engine.ofFuel n room) w).2.hostCalls = w.hostCalls →
          c.ListingEnds k r length (Engine.ofFuel n room) w
            (c.toProxies k (.object r) (Engine.ofFuel n room) w) := by
  refine ⟨convert_list_proxy c k, fun E hE w hr hlength => ?_, fun n room w hr hlength he => ?_⟩
  · exact listing_ends hE.keepsUnless hr (toProxies_visits hlength k E) (by simp [World.tally])
  · exact listing_ends (Engine.ofFuel_keepsUnless c n room) hr (toProxies_visits hlength k _) he

/-- The sample session's world with a further array. -/
def arrayWorld (items : List Value) : World :=
  let w := Session.sampleWorld 1
  let array : Object :=
    { label := "nodes", shape := .array items none, properties := [] : ObjectDescription }.bareObject
  { w with heap := (w.heap.alloc array).2 }

def nodePair : List Value := [.object ⟨6⟩, .object ⟨6⟩]

def brokenPair : List Value := [.object ⟨6⟩, .null, .object ⟨6⟩]

def arrayRef : ObjectRef := ((Session.sampleWorld 1).heap.alloc default).1

/-- Lists the array as nodes. -/
def arrayRun (items : List Value) : Except (Stop SessionError) (List (Proxy .node)) × World :=
  toProxies ⟨0⟩ .node (.object arrayRef) (Engine.ofFuel 3 stackSize) (arrayWorld items)

/-- What is found at an index of the array. -/
def arrayFound (items : List Value) (i : Nat) : Except (Stop SessionError) Sighting × World :=
  found ⟨0⟩ .node arrayRef (Engine.ofFuel 3 stackSize) (arrayWorld items) i

/-- A node that an array holds twice is listed twice by one entry. With a null in between, the null is what
the listing fails with, and nothing but the node before it is retained. -/
theorem toProxies_listed_sample :
    (∃ ps, (arrayRun nodePair).1 = .ok ps ∧ ps.length = 2 ∧ ps[0]? = ps[1]?) ∧
    ∃ ps w₀,
      (arrayRun brokenPair).1 = .error (.failed (.located "[1]" .missingValue)) ∧
      listing ⟨0⟩ .node arrayRef 1 (Engine.ofFuel 3 stackSize) (arrayWorld brokenPair) = (.ok ps, w₀) ∧
      ((arrayRun brokenPair).2.context ⟨0⟩).custodian = (w₀.context ⟨0⟩).custodian := by
  have hready (items : List Value) : ((arrayWorld items).context ⟨0⟩).Ready := by
    have hcontext : (arrayWorld items).context ⟨0⟩ = (Session.sampleWorld 1).context ⟨0⟩ := by rw [arrayWorld]
    rw [hcontext]
    exact ⟨by decide +kernel, by decide +kernel⟩
  constructor
  · have hfound (i : Nat) (hi : i < 2) :
        ∃ s, (arrayFound nodePair i).1 = .ok s ∧ s.key = 7 := by
      have hone : (arrayFound nodePair i).1.toOption.map Sighting.key = some 7 := by
        decide +revert +kernel
      obtain ⟨s, hs, hkey⟩ := Option.map_eq_some_iff.1 hone
      exact ⟨s, congrArg Prod.fst (Session.run_of_toOption hs), hkey⟩
    have hends := (toProxies_listed ⟨0⟩ .node arrayRef 2).2.2 3 stackSize
      (arrayWorld nodePair) (hready _) (by decide +kernel) (by decide +kernel)
    obtain ⟨ss, ps, w', hlength, hsights, hrun, hlisted⟩ :=
      hends.all fun i hi => (hfound i hi).imp fun _ => And.left
    have hkey (i : Nat) (hi : i < ss.length) : ss[i].key = 7 := by
      obtain ⟨s, hs, hkey⟩ := hfound i (hi.trans_eq hlength)
      cases hs.symm.trans (hsights i hi)
      exact hkey
    refine ⟨ps, congrArg Prod.fst hrun, hlisted.length.trans hlength, ?_⟩
    refine (hlisted.same 0 1 (by omega) (by omega)).2 ?_
    rw [hkey, hkey]
  · have hends := (toProxies_listed ⟨0⟩ .node arrayRef 3).2.2 3 stackSize
      (arrayWorld brokenPair) (hready _) (by decide +kernel) (by decide +kernel)
    have hfailure : failure? (arrayFound brokenPair 1).1 = some .missingValue := by decide +kernel
    have hfirst : (arrayFound brokenPair 0).1.toOption.isSome = true := by decide +kernel
    obtain ⟨s, hs⟩ := Option.isSome_iff_exists.1 hfirst
    have hstop := run_of_failure hfailure
    generalize (arrayFound brokenPair 1).2 = w' at hstop
    have hbefore (j : Nat) (hj : j < 1) : ∃ s, (arrayFound brokenPair j).1 = .ok s := by
      obtain rfl : j = 0 := by omega
      exact ⟨s, congrArg Prod.fst (Session.run_of_toOption hs)⟩
    obtain ⟨hrun, ps, w₀, hlisting, _, hcustodian⟩ := hends.first 1 (by omega) hbefore _ w' hstop
    change arrayRun brokenPair = _ at hrun
    rw [hrun]
    exact ⟨ps, w₀, rfl, hlisting, hcustodian⟩

end ContextId

end ProxySession
