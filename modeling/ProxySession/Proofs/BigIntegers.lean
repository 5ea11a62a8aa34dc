import Mathlib.Data.Int.ModEq
import ProxySession.Proofs.Identity
import ProxySession.Proofs.NumberReadings

/-!
# Big integers as identity keys

Big integers are read as 64-bit integers by their low bits, where doubles out of range are refused. So a
big integer always has a key, but one that others share: two objects that are numbered by big integers
resolve to one proxy exactly if their numbers agree modulo `2 ^ 64`.
-/

namespace ProxySession

open Effect

/-- The signed 64-bit integer that a big integer wraps to. -/
structure WrapsTo (b n : ℤ) : Prop where
  residue : n ≡ b [ZMOD 2 ^ 64]
  lower : -2 ^ 63 ≤ n
  upper : n < 2 ^ 63

namespace WrapsTo

variable {b b' n m : ℤ}

theorem int64 (b : ℤ) : WrapsTo b (Int64.ofInt b).toInt where
  residue := by
    rw [Int64.toInt_ofInt]
    exact Int.bmod_emod
  lower := (Int64.ofInt b).le_toInt
  upper := (Int64.ofInt b).toInt_lt

theorem eq_iff (h : WrapsTo b n) (h' : WrapsTo b' m) : n = m ↔ b ≡ b' [ZMOD 2 ^ 64] := by
  constructor
  · rintro rfl
    exact h.residue.symm.trans h'.residue
  · intro hb
    have hmod : n % 2 ^ 64 = m % 2 ^ 64 := h.residue.trans (hb.trans h'.residue.symm)
    have := h.lower
    have := h.upper
    have := h'.lower
    have := h'.upper
    omega

/-- What is in range stays as it is. -/
theorem of_range (hl : -2 ^ 63 ≤ b) (hu : b < 2 ^ 63) : WrapsTo b b := ⟨.refl b, hl, hu⟩

end WrapsTo

theorem Proxy.eq_of_parts {k : ProxyKind} {p q : Proxy k} (hc : p.context = q.context)
    (hkey : p.key = q.key) (hhandle : p.handle = q.handle) : p = q := by
  obtain ⟨c, key, handle⟩ := p
  cases hc
  cases hkey
  cases hhandle
  rfl

/-! ## Conversion -/

theorem Conv.int64_bigint (c : ContextId) (mode : ConvMode) (E : Engine) (w : World) (b : ℤ) :
    Conv.int64.apply c mode (.bigint b) E w = (.ok (.int (Int64.ofInt b).toInt), w) := by
  rw [apply_of_present rfl]
  rfl

/-- The conversion gives what the big integer wraps to, and nothing else. -/
theorem Conv.int64_bigint_iff {c : ContextId} {mode : ConvMode} {E : Engine} {w : World} {b n : ℤ} :
    Conv.int64.apply c mode (.bigint b) E w = (.ok (.int n), w) ↔ WrapsTo b n := by
  rw [int64_bigint]
  constructor
  · intro h
    obtain rfl : (Int64.ofInt b).toInt = n := by
      cases h
      rfl
    exact .int64 b
  · intro h
    rw [((WrapsTo.int64 b).eq_iff h).2 (.refl b)]

/-! ## Identity -/

namespace ContextId

variable {c : ContextId} {k : ProxyKind} {r : ObjectRef} {E : Engine} {w w₁ : World} {v : Value}

/-- The value that foreign code gives as the number of a node. -/
def nodeNumber (c : ContextId) (r : ObjectRef) : Operation Value := do
  let f ← c.function ((← world).context c).nodeId
  (c.callFunction f [.object r]).located "getNodeId"

/-- The value that stands for an object by an identity rule. -/
def valueBy (c : ContextId) (source : IdentityRule) (r : ObjectRef) : Operation Value := do
  match source with
  | .objectToken =>
    let i ← c.tokenSource ((← world).context c).identityToken
    (c.calling (Eval.identityToken i r)).located "identity token"
  | .property name => c.get r name

/-- The value that stands for the identity of an object, before it is read as a key. -/
def identityValue (c : ContextId) (k : ProxyKind) (r : ObjectRef) : Operation Value := do
  let rules := ((← world).context c).rules
  match k with
  | .node => c.nodeNumber r
  | .type => c.get r "id"
  | .symbol => c.valueBy rules.symbolIdentity r
  | .signature => c.valueBy rules.signatureIdentity r

theorem read_of_get {α : Type} {name : String} {convert : Conversion α}
    (h : c.get r name E w = (.ok v, w₁)) :
    c.read r name convert E w = (convert.required v).located name E w₁ := by
  rw [get, located_eq] at h
  rw [read, located_eq, located_eq]
  rcases hrun : c.property r name E w with ⟨s | v', w'⟩
  · rw [hrun] at h
    cases h
  · rw [hrun] at h
    cases h
    rw [bind_of_ok hrun]

theorem nodeKey_eq (c : ContextId) (r : ObjectRef) :
    c.nodeKey r = c.nodeNumber r >>= fun v => (Conversion.required .toInt64 v).located "getNodeId" := by
  have h : c.nodeNumber r = world >>= fun w => c.function (w.context c).nodeId >>= fun f =>
    (c.callFunction f [.object r]).located "getNodeId" := rfl
  rw [h, bind_assoc]
  funext E w
  rw [world_bind, bind_assoc]
  rfl

theorem keyBy_of_value {source : IdentityRule} (h : c.valueBy source r E w = (.ok v, w₁)) :
    ∃ site, c.keyBy source r E w = (Conversion.required .toInt64 v).located site E w₁ := by
  cases source with
  | objectToken =>
    refine ⟨"identity token", ?_⟩
    have hkey : c.keyBy .objectToken r E w = (c.valueBy .objectToken r >>= fun v =>
        (Conversion.required .toInt64 v).located "identity token") E w := by
      have hv : c.valueBy .objectToken r = world >>= fun w =>
        c.tokenSource (w.context c).identityToken >>= fun i =>
          (c.calling (Eval.identityToken i r)).located "identity token" := rfl
      rw [hv, bind_assoc, world_bind, bind_assoc]
      rfl
    rw [hkey, bind_of_ok h]
  | property name => exact ⟨name, read_of_get h⟩

/-- The key of an object is its identity read as a 64-bit integer. -/
theorem identityKey_of_value (h : c.identityValue k r E w = (.ok v, w₁)) :
    ∃ site, c.identityKey k r E w = (Conversion.required .toInt64 v).located site E w₁ := by
  cases k with
  | node =>
    have hn : c.nodeNumber r E w = (.ok v, w₁) := h
    refine ⟨"getNodeId", ?_⟩
    change c.nodeKey r E w = _
    rw [nodeKey_eq, bind_of_ok hn]
  | type => exact ⟨"id", read_of_get h⟩
  | symbol => exact keyBy_of_value h
  | signature => exact keyBy_of_value h

theorem identityKey_of_bigint {b : ℤ} (h : c.identityValue k r E w = (.ok (.bigint b), w₁)) :
    c.identityKey k r E w = (.ok (Int64.ofInt b), w₁) := by
  obtain ⟨site, hkey⟩ := identityKey_of_value h
  exact hkey

end ContextId

/-! ## Sessions -/

namespace Session

/-- A resolution that ends in a world, of an object whose identity is a big integer. -/
structure BigResolution (heap : Heap) (c : ContextId) (k : ProxyKind) (b : ℤ) (p : Proxy k) (w' : World) :
    Prop where
  arrived : Arrived heap w'
  run : ∃ fuel room r w w₁, c.index < w.contexts.size ∧
    c.identityValue k r (Engine.ofFuel fuel room) w = (.ok (.bigint b), w₁) ∧
      c.resolve k (.object r) (Engine.ofFuel fuel room) w = (.ok p, w')

variable {heap : Heap} {c : ContextId} {k : ProxyKind} {b b' : ℤ} {p p' : Proxy k} {w w' : World}

theorem Passes.later (h : Passes heap w w') : w.toHoldings.Later w'.toHoldings := by
  obtain ⟨F, F', hrun, hrun'⟩ := h
  exact (hrun'.moves.sound_later (hrun.moves.sound_later Holdings.empty_sound).1).2

theorem Arrived.sound (h : Arrived heap w) : ∃ F, Holdings.Sound F w.toHoldings := by
  obtain ⟨F, hrun⟩ := h
  exact ⟨F, (hrun.moves.sound_later Holdings.empty_sound).1⟩

namespace BigResolution

/-- The resolution is on record, and its context is open at its end. -/
theorem recorded (h : BigResolution heap c k b p w') : p.context = c ∧ p.key = Int64.ofInt b ∧
    (∃ r, ⟨k, r, Int64.ofInt b, p⟩ ∈ w'.resolutions) ∧
      (w'.context c).custodian.closed = false := by
  obtain ⟨fuel, room, r, w, w₁, hv, hid, hrun⟩ := h.run
  have hbig := ContextId.identityKey_of_bigint hid
  obtain ⟨r', key, w₂, hr, hkey, hc, hp, hrec, hlook⟩ := ContextId.resolve_lookedUp hv hrun
  cases hr
  rw [hbig] at hkey
  cases hkey
  refine ⟨hc, hp, ⟨r, by simp [hrec]⟩, ?_⟩
  obtain ⟨F, hs⟩ := h.arrived.sound
  -- A closed context has no entry, and the proxy has one.
  by_contra hclosed
  have hnone := (hs.ended c (by simpa using hclosed)).entries k
  rw [Holdings.LookedUp] at hlook
  split at hlook
  · next handle hpresent =>
    have hsame : (w'.context c).identities k = (w₁.context c).identities k :=
      congrArg (fun contexts => (contexts.getD c.index default).identities k) hlook.2
    rw [IdentityMap.get?, ← hsame, hnone] at hpresent
    cases hpresent
  · rw [hlook.2.1] at hnone
    simp at hnone

/-- Resolutions of objects that are numbered by big integers hand out one proxy exactly if the numbers
wrap to the same integer. -/
theorem same_iff (h : BigResolution heap c k b p w) (h' : BigResolution heap c k b' p' w')
    (hw : Passes heap w w') : p = p' ↔ b ≡ b' [ZMOD 2 ^ 64] := by
  obtain ⟨hc, hkey, ⟨r, hρ⟩, _⟩ := h.recorded
  obtain ⟨hc', hkey', ⟨r', hσ⟩, ho⟩ := h'.recorded
  obtain ⟨new, hnew, _⟩ := hw.later.resolutions
  have hρ' : ⟨k, r, Int64.ofInt b, p⟩ ∈ w'.resolutionsOf c := by
    rw [Holdings.resolutionsOf, hnew, List.filter_append]
    exact List.mem_append_left _ (List.mem_filter.2 ⟨Array.mem_toList_iff.2 hρ, by simpa using hc⟩)
  have hσ' : ⟨k, r', Int64.ofInt b', p'⟩ ∈ w'.resolutionsOf c :=
    List.mem_filter.2 ⟨Array.mem_toList_iff.2 hσ, by simpa using hc'⟩
  obtain ⟨F, hs⟩ := h'.arrived.sound
  have ha := hs.alive c (hc' ▸ hs.resolutions _ hσ) ho
  have hentry := (ha.keeps.proxies _ hρ').2
  have hentry' := (ha.keeps.proxies _ hσ').2
  dsimp only at hentry hentry'
  rw [← (WrapsTo.int64 b).eq_iff (.int64 b'), Int64.toInt_inj]
  constructor
  · rintro rfl
    exact hkey.symm.trans hkey'
  · intro hkeys
    rw [← hkeys, hentry] at hentry'
    exact Proxy.eq_of_parts (hc.trans hc'.symm) (hkey.trans (hkeys.trans hkey'.symm))
      (Option.some.inj hentry')

end BigResolution

/-- A big integer is read as the 64-bit integer that it wraps to, whether it is in range or not. So two
resolutions of objects that are numbered by big integers, as nodes, types, symbols or signatures of one
context, hand out one proxy exactly if the numbers agree modulo `2 ^ 64`. -/
theorem big_integers_wrap (heap : Heap) :
    (∀ c mode E w b n, Conv.int64.apply c mode (.bigint b) E w = (.ok (.int n), w) ↔ WrapsTo b n) ∧
    (∀ c mode E w b, ∃ n, WrapsTo b n ∧
      Conv.int64.apply c mode (.bigint b) E w = (.ok (.int n), w)) ∧
    (∀ b, -2 ^ 63 ≤ b → b < 2 ^ 63 → WrapsTo b b) ∧
    ∀ c k b b' (p p' : Proxy k) w w', BigResolution heap c k b p w → BigResolution heap c k b' p' w' →
      Passes heap w w' → WrapsTo b p.key.toInt ∧ (p = p' ↔ b ≡ b' [ZMOD 2 ^ 64]) := by
  refine ⟨fun c mode E w b n => Conv.int64_bigint_iff, fun c mode E w b => ?_,
    fun b => WrapsTo.of_range, fun c k b b' p p' w w' h h' hw => ⟨?_, h.same_iff h' hw⟩⟩
  · exact ⟨_, .int64 b, Conv.int64_bigint c mode E w b⟩
  · rw [h.recorded.2.1]
    exact .int64 b

/-! ## A sample session -/

/-- The sample heap where two objects are numbered by big integers, as types. -/
def bigHeap : Heap :=
  let id (b : ℤ) : Property := ⟨.ofString "id", .data (.bigint b), true⟩
  (sampleHeap.update ⟨6⟩ fun o => o.define (id 1)).update ⟨4⟩ fun o => o.define (id (2 ^ 64 + 1))

/-- The session's context is open, and a running operation keeps it alive. -/
def bigWorld : World := World.take (.context ⟨0⟩) (last 3 bigHeap [] (sampleSteps.take 1))

/-- Resolves an object as a type. -/
def resolveBig (r : ObjectRef) (w : World) : Except (Stop SessionError) TypeProxy × World :=
  ContextId.resolve ⟨0⟩ .type (.object r) (Engine.ofFuel 2 stackSize) w

def bigWorld₁ : World := (resolveBig ⟨6⟩ bigWorld).2

def bigWorld₂ : World := (resolveBig ⟨4⟩ bigWorld₁).2

theorem bigWorld_transitions : Transitions 0 (World.ofHeap bigHeap) {.context ⟨0⟩} bigWorld := by
  have hbound : Reference.context ⟨0⟩ ∈
      (last 3 bigHeap [] (sampleSteps.take 1)).variableReferences := by
    decide +kernel
  exact last_transitions.trans (Progress.take _ hbound).transitions

theorem resolveBig_transitions (r : ObjectRef) (w : World) :
    Transitions {.context ⟨0⟩} w {.context ⟨0⟩} (resolveBig r w).2 := by
  have hneutral : (ContextId.resolve ⟨0⟩ .type (.object r)).Neutral [.context ⟨0⟩] :=
    ContextId.resolve_neutral (by simp) .type (.object r)
  exact (hneutral _ (Engine.ofFuel_sound 2 stackSize) _ w (by simp)).transitions

theorem bigWorld₁_resolution : BigResolution bigHeap ⟨0⟩ .type 1 ⟨⟨0⟩, 1, ⟨5⟩⟩ bigWorld₁ := by
  have hv : (⟨0⟩ : ContextId).index < bigWorld.contexts.size := by decide +kernel
  have hid : (ContextId.identityValue ⟨0⟩ .type ⟨6⟩ (Engine.ofFuel 2 stackSize) bigWorld).1.toOption =
      some (.bigint 1) := by
    decide +kernel
  have hrun : (resolveBig ⟨6⟩ bigWorld).1.toOption = some ⟨⟨0⟩, 1, ⟨5⟩⟩ := by decide +kernel
  exact ⟨⟨_, bigWorld_transitions.trans (resolveBig_transitions _ _)⟩, 2, stackSize, ⟨6⟩, bigWorld, _, hv,
    run_of_toOption hid, run_of_toOption hrun⟩

theorem bigWorld₂_resolution :
    BigResolution bigHeap ⟨0⟩ .type (2 ^ 64 + 1) ⟨⟨0⟩, 1, ⟨5⟩⟩ bigWorld₂ := by
  have hv : (⟨0⟩ : ContextId).index < bigWorld₁.contexts.size := by decide +kernel
  have hid : (ContextId.identityValue ⟨0⟩ .type ⟨4⟩ (Engine.ofFuel 2 stackSize) bigWorld₁).1.toOption =
      some (.bigint (2 ^ 64 + 1)) := by
    decide +kernel
  have hrun : (resolveBig ⟨4⟩ bigWorld₁).1.toOption = some ⟨⟨0⟩, 1, ⟨5⟩⟩ := by decide +kernel
  exact ⟨⟨_, (bigWorld_transitions.trans (resolveBig_transitions _ _)).trans (resolveBig_transitions _ _)⟩,
    2, stackSize, ⟨4⟩, bigWorld₁, _, hv, run_of_toOption hid, run_of_toOption hrun⟩

theorem bigWorld_passes : Passes bigHeap bigWorld₁ bigWorld₂ :=
  ⟨_, _, bigWorld_transitions.trans (resolveBig_transitions _ _), resolveBig_transitions _ _⟩

/-- The number of the second object wraps to the key of the first one, so it gets the same proxy. -/
theorem big_integers_wrap_sample :
    BigResolution bigHeap ⟨0⟩ .type 1 ⟨⟨0⟩, 1, ⟨5⟩⟩ bigWorld₁ ∧
    BigResolution bigHeap ⟨0⟩ .type (2 ^ 64 + 1) ⟨⟨0⟩, 1, ⟨5⟩⟩ bigWorld₂ ∧
    Passes bigHeap bigWorld₁ bigWorld₂ ∧ WrapsTo 1 1 ∧ 1 ≡ 2 ^ 64 + 1 [ZMOD 2 ^ 64] := by
  obtain ⟨_, _, hrange, hsame⟩ := big_integers_wrap bigHeap
  obtain ⟨_, hiff⟩ := hsame _ _ _ _ _ _ _ _ bigWorld₁_resolution bigWorld₂_resolution bigWorld_passes
  exact ⟨bigWorld₁_resolution, bigWorld₂_resolution, bigWorld_passes,
    hrange 1 (by norm_num) (by norm_num), hiff.1 rfl⟩

/-- Not only big integers in range are read, and different ones can lead to one proxy. -/
theorem big_integers_meet :
    (¬∀ (b : ℤ) (n : ℤ), Conv.int64.apply ⟨0⟩ .required (.bigint b) (Engine.ofFuel 2 stackSize) bigWorld =
      (.ok (.int n), bigWorld) → n = b ∧ -2 ^ 63 ≤ b ∧ b < 2 ^ 63) ∧
    ¬∀ (b b' : ℤ) (p p' : TypeProxy) (w w' : World), BigResolution bigHeap ⟨0⟩ .type b p w →
      BigResolution bigHeap ⟨0⟩ .type b' p' w' → Passes bigHeap w w' → b ≠ b' → p ≠ p' := by
  constructor
  · intro h
    have hread := Conv.int64_bigint ⟨0⟩ .required (Engine.ofFuel 2 stackSize) bigWorld (2 ^ 64 + 1)
    obtain ⟨_, _, hlt⟩ := h _ _ hread
    norm_num at hlt
  · intro h
    exact h _ _ _ _ _ _ bigWorld₁_resolution bigWorld₂_resolution bigWorld_passes (by norm_num) rfl

end Session

end ProxySession
