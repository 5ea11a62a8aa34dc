import ProxySession.Proofs.Operations
import ProxySession.Session.Run

/-!
# Nested look-ups in an identity map

The creation of an entry runs between the look-up and the insertion. It can look up further keys in the
same map, or the same key once more, and each of these calls has a creation of its own. A `Creation` is
what such a creation does; `Creation.visits` is the record of all calls that are made on the way, each with
the content of the map at its begin, when its creation had ended, and at its end.
-/

namespace ProxySession

open Effect

variable {α : Type}

namespace IdentityMap

/-- Entries were only added. -/
def Grows (m m' : IdentityMap α) : Prop := m.entries <+: m'.entries

namespace Grows

variable {m m' m'' : IdentityMap α} {key : Int64} {a : α}

theorem refl (m : IdentityMap α) : m.Grows m := List.prefix_refl m.entries

theorem trans (h₁ : m.Grows m') (h₂ : m'.Grows m'') : m.Grows m'' := List.IsPrefix.trans h₁ h₂

/-- An entry that is present is neither replaced nor removed. -/
theorem get? (h : m.Grows m') (ha : m.get? key = some a) : m'.get? key = some a := by
  obtain ⟨added, hm⟩ := h
  rw [IdentityMap.get?, ← hm, List.lookup_append, show m.entries.lookup key = some a from ha]
  rfl

end Grows

theorem offer_grows (m : IdentityMap α) (key : Int64) (a : α) : m.Grows (m.offer key a).2 := by
  rw [offer]
  split
  · exact .refl m
  · exact List.prefix_append m.entries _

/-- What was offered for a key or present under it is present then. -/
theorem get?_offer (m : IdentityMap α) (key : Int64) (a : α) :
    (m.offer key a).2.get? key = some (m.offer key a).1 := by
  rw [offer]
  split
  · next h => exact h
  · next h =>
    change (m.entries ++ [(key, a)]).lookup key = some a
    rw [List.lookup_append, show m.entries.lookup key = none from h]
    simp

end IdentityMap

/-! ## Maps in the world -/

/-- Storing a map where one fits replaces that map, and records do not reach it. -/
structure MapLens.Lawful (map : MapLens α) (fits : World → Prop) : Prop where
  load_store : ∀ {w : World} (m : IdentityMap α), fits w → map.load (map.store m w) = m
  load_log : ∀ (w : World) (level : LogLevel) (message : String) (fields : List (String × String)),
    map.load (w.log level message fields) = map.load w
  load_cross : ∀ (w : World) (crossing : Crossing), map.load (w.cross crossing) = map.load w
  crossings_store : ∀ (m : IdentityMap α) (w : World), (map.store m w).crossings = w.crossings
  fits_store : ∀ {w : World} (m : IdentityMap α), fits w → fits (map.store m w)
  fits_log : ∀ {w : World} (level : LogLevel) (message : String) (fields : List (String × String)),
    fits w → fits (w.log level message fields)
  fits_cross : ∀ {w : World} (crossing : Crossing), fits w → fits (w.cross crossing)

theorem MapLens.ofIndex_lawful (i : Nat) : (MapLens.ofIndex i).Lawful fun w => i < w.maps.size where
  load_store {w} m h := by simp [ofIndex, World.mapAt, Array.getD, h]
  load_log _ _ _ _ := rfl
  load_cross _ _ := rfl
  crossings_store _ _ := rfl
  fits_store m h := by simpa [ofIndex] using h
  fits_log _ _ _ h := h
  fits_cross _ h := h

theorem MapLens.ofContext_lawful (c : ContextId) (k : ProxyKind) :
    (MapLens.ofContext c k).Lawful fun w => c.index < w.contexts.size where
  load_store {w} m h := by
    simp [ofContext, World.updateContext, Holdings.context, Array.getD, h, Array.getElem_modify]
  load_log _ _ _ _ := rfl
  load_cross _ _ := rfl
  crossings_store _ _ := rfl
  fits_store m h := by simpa [ofContext, World.updateContext] using h
  fits_log _ _ _ h := h
  fits_cross _ h := h

theorem MapLens.Lawful.load_logLookup {map : MapLens α} {fits : World → Prop} (hl : map.Lawful fits)
    (message : String) (key : Int64) (w : World) :
    map.load (map.logLookup message key w) = map.load w := hl.load_log _ _ _ _

theorem MapLens.Lawful.fits_logLookup {map : MapLens α} {fits : World → Prop} {w : World}
    (hl : map.Lawful fits) (message : String) (key : Int64) (hw : fits w) :
    fits (map.logLookup message key w) := hl.fits_log _ _ _ hw

/-! ## Creations -/

/-- What the creation of an entry does: calls for further entries, which may depend on how the calls before
were answered, and then its outcome. -/
inductive Creation (α : Type) where
  | done (outcome : Except SessionError α)
  | call (key : Int64) (create : Creation α) (next : Except SessionError α → Creation α)

/-- A call for an entry. -/
structure Visit (α : Type) where
  key : Int64
  /-- The map when the call begins. -/
  before : IdentityMap α
  /-- What the creation came to and the map after it, if it was invoked. -/
  creation : Option (Except (Stop SessionError) α × IdentityMap α)
  answer : Except SessionError α
  /-- The map when the call ends. -/
  after : IdentityMap α

namespace Creation

/-- Runs a creation. An invocation is on record as a crossing. -/
def run (map : MapLens α) : Creation α → Operation α
  | .done outcome => ofExcept outcome
  | .call key create next => do
    let answer ← (map.intern key do
      change fun w => w.cross (.create key)
      create.run map).attempt
    (next answer).run map

/-- One call. -/
def intern (map : MapLens α) (key : Int64) (create : Creation α) : Operation α :=
  map.intern key do
    change fun w => w.cross (.create key)
    create.run map

/-- All calls in the order in which they begin. A creation was invoked if something crossed during the
call. -/
def visits (map : MapLens α) (E : Engine) : Creation α → World → List (Visit α)
  | .done _, _ => []
  | .call key create next, w =>
    match (create.intern map key).attempt (δ := SessionError) E w with
    | (.error _, _) => []
    | (.ok answer, w') =>
      let opening := w.cross (.create key)
      let created := create.run map E opening
      if w.crossings.size < w'.crossings.size then
        ⟨key, map.load w, some (created.1, map.load created.2), answer, map.load w'⟩ ::
          (visits map E create opening ++ visits map E (next answer) w')
      else ⟨key, map.load w, none, answer, map.load w'⟩ :: visits map E (next answer) w'

end Creation

/-! ## One call -/

namespace Visit

/-- All that a call can do: answer with the entry that is there, or invoke the creation and keep what it
made, unless there is an entry by then, or fail as the creation did. -/
inductive Lawful : Visit α → Prop
  | present {key : Int64} {m : IdentityMap α} {a : α} (ha : m.get? key = some a) :
    Lawful ⟨key, m, none, .ok a, m⟩
  | made {key : Int64} {before m : IdentityMap α} {a : α} (hn : before.get? key = none)
    (hg : before.Grows m) :
    Lawful ⟨key, before, some (.ok a, m), .ok (m.offer key a).1, (m.offer key a).2⟩
  | failed {key : Int64} {before m : IdentityMap α} {e : SessionError} (hn : before.get? key = none)
    (hg : before.Grows m) :
    Lawful ⟨key, before, some (.error (.failed e), m), .error e, m⟩

namespace Lawful

variable {v : Visit α}

theorem creation_isSome (h : v.Lawful) : v.creation.isSome ↔ v.before.get? v.key = none := by
  cases h with
  | present ha => simp [ha]
  | made hn _ => simp [hn]
  | failed hn _ => simp [hn]

theorem grows (h : v.Lawful) : v.before.Grows v.after := by
  cases h with
  | present _ => exact .refl _
  | made _ hg => exact hg.trans (IdentityMap.offer_grows _ _ _)
  | failed _ hg => exact hg

theorem get?_after {a : α} (h : v.Lawful) (ha : v.answer = .ok a) : v.after.get? v.key = some a := by
  cases h with
  | present hp =>
    cases ha
    exact hp
  | made _ _ =>
    cases ha
    exact IdentityMap.get?_offer _ _ _
  | failed _ _ => cases ha

/-- A call that fails leaves the map as its creation did. -/
theorem creation_of_error {e : SessionError} (h : v.Lawful) (he : v.answer = .error e) :
    v.creation = some (.error (.failed e), v.after) := by
  cases h with
  | present _ => cases he
  | made _ _ => cases he
  | failed _ _ =>
    cases he
    rfl

end Lawful

/-- The crossing of an invoked creation. -/
def invocation? (v : Visit α) : Option Crossing := v.creation.map fun _ => .create v.key

/-- A call that begins later begins after this one ended or ends before this one does. -/
def Precedes (v v' : Visit α) : Prop :=
  v.before.Grows v'.before ∧ (v.after.Grows v'.before ∨ v'.after.Grows v.after)

end Visit

namespace Creation

variable {map : MapLens α} {fits : World → Prop} {key : Int64} {create : Creation α} {E : Engine}
  {w w' : World}

theorem attempt_eq {x : Operation α} {answer : Except SessionError α}
    (h : x E w = (answer.mapError .failed, w')) :
    x.attempt (δ := SessionError) E w = (.ok answer, w') := by
  rw [attempt, h]
  cases answer <;> rfl

theorem intern_present {a : α} (ha : (map.load w).get? key = some a) :
    create.intern map key E w = (.ok a, map.logLookup "proxy cache hit" key w) := by
  simp only [intern, MapLens.intern, bind_eq, world, ha]
  rfl

theorem intern_failed {stop : Stop SessionError} (hn : (map.load w).get? key = none)
    (hc : create.run map E (w.cross (.create key)) = (.error stop, w')) :
    create.intern map key E w = (.error stop, w') := by
  simp only [intern, MapLens.intern, bind_eq, world, hn, change, hc]

theorem intern_made {a : α} (hl : map.Lawful fits) (hn : (map.load w).get? key = none)
    (hc : create.run map E (w.cross (.create key)) = (.ok a, w')) :
    create.intern map key E w = (.ok ((map.load w').offer key a).1,
      map.store ((map.load w').offer key a).2 (map.logLookup "proxy cache miss" key w')) := by
  rw [← hl.load_logLookup "proxy cache miss" key w']
  simp only [intern, MapLens.intern, bind_eq, world, hn, change, hc]
  rfl

/-- What is known of a run: how it ends, that the map only grows, that exactly the invocations cross, and
what holds of the calls on the way. -/
structure Course (map : MapLens α) (fits : World → Prop) (E : Engine) (t : Creation α) (w : World) :
    Prop where
  answered : ∃ answer : Except SessionError α, (t.run map E w).1 = answer.mapError .failed
  fits : fits (t.run map E w).2
  grows : (map.load w).Grows (map.load (t.run map E w).2)
  crossings : (t.run map E w).2.crossings.toList =
    w.crossings.toList ++ (t.visits map E w).filterMap Visit.invocation?
  visited : ∀ v ∈ t.visits map E w,
    v.Lawful ∧ (map.load w).Grows v.before ∧ v.after.Grows (map.load (t.run map E w).2)
  ordered : (t.visits map E w).Pairwise Visit.Precedes

/-- A call with a creation whose course is known. -/
theorem intern_cases (hl : map.Lawful fits) (hw : fits w)
    (hc : create.Course map fits E (w.cross (.create key))) :
    ∃ answer w', create.intern map key E w = (answer.mapError .failed, w') ∧ fits w' ∧
      ((w'.crossings = w.crossings ∧ Visit.Lawful ⟨key, map.load w, none, answer, map.load w'⟩) ∨
        let created := create.run map E (w.cross (.create key))
        w'.crossings = created.2.crossings ∧ (map.load created.2).Grows (map.load w') ∧
          Visit.Lawful ⟨key, map.load w, some (created.1, map.load created.2), answer, map.load w'⟩) := by
  cases hn : (map.load w).get? key with
  | some a =>
    refine ⟨.ok a, _, intern_present hn, hl.fits_logLookup _ _ hw, .inl ⟨rfl, ?_⟩⟩
    rw [hl.load_logLookup]
    exact .present hn
  | none =>
    have hgrows := hc.grows
    rw [hl.load_cross] at hgrows
    obtain ⟨answer, hanswer⟩ := hc.answered
    cases answer with
    | error e =>
      refine ⟨.error e, _, intern_failed hn (Prod.ext hanswer rfl), hc.fits, .inr ⟨rfl, .refl _, ?_⟩⟩
      rw [hanswer]
      exact .failed hn hgrows
    | ok a =>
      have hlog := hl.fits_logLookup "proxy cache miss" key hc.fits
      refine ⟨.ok _, _, intern_made hl hn (Prod.ext hanswer rfl), hl.fits_store _ hlog,
        .inr ⟨hl.crossings_store _ _, ?_⟩⟩
      rw [hl.load_store _ hlog, hanswer]
      exact ⟨IdentityMap.offer_grows _ _ _, .made hn hgrows⟩

/-- The visits of a call are its own, those of its creation if it was invoked, and those that follow. -/
theorem visits_call (hl : map.Lawful fits) (hw : fits w) (next : Except SessionError α → Creation α)
    (hc : create.Course map fits E (w.cross (.create key))) :
    ∃ answer w' v nested, create.intern map key E w = (answer.mapError .failed, w') ∧ fits w' ∧
      (call key create next).visits map E w = v :: (nested ++ (next answer).visits map E w') ∧
      v.Lawful ∧ v.before = map.load w ∧ v.after = map.load w' ∧
      (∀ v' ∈ nested, v'.Lawful ∧ (map.load w).Grows v'.before ∧ v'.after.Grows (map.load w')) ∧
      nested.Pairwise Visit.Precedes ∧
      w'.crossings.toList = w.crossings.toList ++ (v :: nested).filterMap Visit.invocation? := by
  obtain ⟨answer, w', hcall, hfits, hlawful⟩ := intern_cases hl hw hc
  have hattempt := attempt_eq hcall
  rcases hlawful with ⟨hcrossings, hlawful⟩ | ⟨hcrossings, hkept, hlawful⟩
  · refine ⟨answer, w', _, [], hcall, hfits, ?_, hlawful, rfl, rfl, nofun, .nil, ?_⟩
    · rw [visits, hattempt]
      exact if_neg (by simp [hcrossings])
    · rw [hcrossings]
      exact (List.append_nil _).symm
  · have hrecord : w'.crossings.toList = w.crossings.toList ++ Crossing.create key ::
        (create.visits map E (w.cross (.create key))).filterMap Visit.invocation? := by
      rw [hcrossings, hc.crossings, World.cross, Array.toList_push, List.append_assoc]
      rfl
    -- An invoked creation is on record, and by this `visits` tells that it was invoked.
    have hsize : w.crossings.size < w'.crossings.size := by
      have hlength := congrArg List.length hrecord
      simp only [Array.length_toList, List.length_append, List.length_cons] at hlength
      omega
    refine ⟨answer, w', _, create.visits map E (w.cross (.create key)), hcall, hfits, ?_, hlawful,
      rfl, rfl, fun v' hv' => ?_, hc.ordered, hrecord⟩
    · rw [visits, hattempt]
      exact if_pos hsize
    · obtain ⟨hv, hbefore, hafter⟩ := hc.visited v' hv'
      rw [hl.load_cross] at hbefore
      exact ⟨hv, hbefore, hafter.trans hkept⟩

/-- Every run takes its course. -/
theorem course (hl : map.Lawful fits) (t : Creation α) (hw : fits w) : t.Course map fits E w := by
  -- The creation of a call and what follows each of its answers are both smaller than the call.
  induction t generalizing w with
  | done outcome =>
    have hrun : (done outcome).run map E w = (outcome.mapError .failed, w) := by
      cases outcome <;> rfl
    refine ⟨⟨outcome, congrArg Prod.fst hrun⟩, ?_, ?_, ?_, nofun, .nil⟩
    all_goals rw [hrun]
    · exact hw
    · exact .refl _
    · exact (List.append_nil _).symm
  | call key create next ihcreate ihnext =>
    obtain ⟨answer, w', v, nested, hcall, hfits, hvisits, hlawful, hbefore, hafter, hnested,
      hordered, hcrossings⟩ := visits_call hl hw next (ihcreate (hl.fits_cross _ hw))
    have hnext := ihnext answer hfits
    have hrun : (call key create next).run map E w = (next answer).run map E w' := by
      change (bind (create.intern map key).attempt fun answer => (next answer).run map) E w = _
      rw [bind_eq, attempt_eq hcall]
    have hgrows : (map.load w).Grows (map.load w') := by
      rw [← hbefore, ← hafter]
      exact hlawful.grows
    refine ⟨?answered, ?fits, ?grows, ?crossings, ?visited, ?ordered⟩
    case answered =>
      rw [hrun]
      exact hnext.answered
    case fits =>
      rw [hrun]
      exact hnext.fits
    case grows =>
      rw [hrun]
      exact hgrows.trans hnext.grows
    case crossings =>
      rw [hrun, hvisits, hnext.crossings, hcrossings, List.append_assoc, ← List.filterMap_append]
      rfl
    case visited =>
      rw [hrun, hvisits]
      intro v' hv'
      rcases List.mem_cons.1 hv' with rfl | hv'
      · exact ⟨hlawful, hbefore ▸ .refl _, hafter ▸ hnext.grows⟩
      rcases List.mem_append.1 hv' with hv' | hv'
      · obtain ⟨hv, hb, ha⟩ := hnested v' hv'
        exact ⟨hv, hb, ha.trans hnext.grows⟩
      · obtain ⟨hv, hb, ha⟩ := hnext.visited v' hv'
        exact ⟨hv, hgrows.trans hb, ha⟩
    case ordered =>
      rw [hvisits, List.pairwise_cons, List.pairwise_append]
      -- The calls of the creation end before this one does; those that follow begin after its end.
      refine ⟨fun v' hv' => ?_, hordered, hnext.ordered, fun v₁ hv₁ v₂ hv₂ => ?_⟩
      · rw [Visit.Precedes, hbefore, hafter]
        rcases List.mem_append.1 hv' with hv' | hv'
        · exact ⟨(hnested v' hv').2.1, .inr (hnested v' hv').2.2⟩
        · exact ⟨hgrows.trans (hnext.visited v' hv').2.1, .inl (hnext.visited v' hv').2.1⟩
      · have hends := (hnested v₁ hv₁).2.2.trans (hnext.visited v₂ hv₂).2.1
        exact ⟨(hnested v₁ hv₁).1.grows.trans hends, .inl hends⟩

/-- The law of an identity map under creations that use it themselves. A creation is invoked if and only if
its key had no entry when the call began, and nothing else crosses; no entry is ever replaced or removed; a
call that succeeds answers with the entry that is there at its end and from then on, so that all calls for
a key answer alike; a call that fails leaves the map as its creation did, with all that was made on the
way. -/
theorem nested_lookups (hl : map.Lawful fits) (hw : fits w) (t : Creation α) (E : Engine) :
    let calls := t.visits map E w
    let last := (t.run map E w).2
    last.crossings.toList = w.crossings.toList ++ calls.filterMap Visit.invocation? ∧
      (∀ v ∈ calls, (v.creation.isSome ↔ v.before.get? v.key = none) ∧
        (map.load w).Grows v.before ∧ v.before.Grows v.after ∧ v.after.Grows (map.load last) ∧
        (∀ a, v.answer = .ok a →
          v.after.get? v.key = some a ∧ (map.load last).get? v.key = some a) ∧
        ∀ e, v.answer = .error e → v.creation = some (.error (.failed e), v.after)) ∧
      calls.Pairwise (fun v v' => v.before.Grows v'.before ∧
        (v.after.Grows v'.before ∨ v'.after.Grows v.after)) ∧
      ∀ v ∈ calls, ∀ v' ∈ calls, ∀ a a', v.key = v'.key → v.answer = .ok a → v'.answer = .ok a' →
        a = a' := by
  intro calls last
  have hcourse := t.course hl (E := E) hw
  have hentry {v : Visit α} (hv : v ∈ calls) {a : α} (ha : v.answer = .ok a) :
      v.after.get? v.key = some a ∧ (map.load last).get? v.key = some a := by
    obtain ⟨hlawful, _, hafter⟩ := hcourse.visited v hv
    exact ⟨hlawful.get?_after ha, hafter.get? (hlawful.get?_after ha)⟩
  refine ⟨hcourse.crossings, fun v hv => ?_, hcourse.ordered, fun v hv v' hv' a a' hkey ha ha' => ?_⟩
  · obtain ⟨hlawful, hbefore, hafter⟩ := hcourse.visited v hv
    exact ⟨hlawful.creation_isSome, hbefore, hlawful.grows, hafter, fun _ => hentry hv,
      fun _ => hlawful.creation_of_error⟩
  · have h := (hentry hv ha).2
    rw [hkey, (hentry hv' ha').2] at h
    exact (Option.some.inj h).symm

/-- A creation fills its own key before it is done and another one looks up a key on its way to failing. -/
def sampleCreation : Creation String :=
  .call 2 (.call 2 (.done (.ok "inner")) fun _ =>
    .call 1 (.done (.ok "other")) fun _ => .done (.ok "outer")) fun _ =>
  .call 4 (.call 5 (.done (.ok "five")) fun _ => .done (.error .missingValue)) .done

def sampleMaps : World :=
  { (default : World) with maps := #[⟨"sample", [(1, "one")]⟩] }

theorem nested_lookups_sample :
    0 < sampleMaps.maps.size ∧
      (sampleCreation.run (.ofIndex 0) (.ofFuel 0 0) sampleMaps).2.crossings.toList =
        [.create 2, .create 2, .create 4, .create 5] ∧
      ((sampleCreation.run (.ofIndex 0) (.ofFuel 0 0) sampleMaps).2.mapAt 0).entries =
        [(1, "one"), (2, "inner"), (5, "five")] := by
  have hsize : 0 < sampleMaps.maps.size := by decide
  exact ⟨hsize, (nested_lookups (MapLens.ofIndex_lawful 0) hsize sampleCreation (.ofFuel 0 0)).1.trans rfl,
    rfl⟩

end Creation

/-! ## Look-ups as creations -/

namespace Lookup

mutual

/-- The creation that makes a look-up and goes on with its answer. -/
def creation : Lookup → (Except SessionError String → Creation String) → Creation String
  | .mk key before outcome, next => .call key (creations before (.done outcome)) next

/-- The creation that makes look-ups until one of them fails. -/
def creations : List Lookup → Creation String → Creation String
  | [], last => last
  | l :: rest, last => l.creation fun
    | .ok _ => creations rest last
    | .error e => .done (.error e)

end

/-- An answer that is caught and thrown again has not been caught. -/
theorem attempt_bind {α β : Type} (x : Operation α) (f : α → Operation β)
    (handler : Except SessionError α → Operation β) (hok : ∀ a, handler (.ok a) = f a)
    (herror : ∀ e, handler (.error e) = fail e) : x.attempt >>= handler = x >>= f := by
  funext E w
  rw [bind_eq, bind_eq, attempt]
  rcases x E w with ⟨(e | _ | _) | a, w'⟩
  · exact congrFun₂ (herror e) E w'
  · rfl
  · rfl
  · exact congrFun₂ (hok a) E w'

mutual

theorem creation_run (map : MapLens String) (next : Except SessionError String → Creation String) :
    ∀ l : Lookup, (l.creation next).run map = (l.run map).attempt >>= fun a => (next a).run map
  | .mk key before outcome => by
    rw [creation, Creation.run, creations_run map (.done outcome) before, Lookup.run]
    rfl

theorem creations_run (map : MapLens String) (last : Creation String) :
    ∀ ls : List Lookup, (creations ls last).run map = runAll map ls >>= fun _ => last.run map
  | [] => rfl
  | l :: rest => by
    rw [creations, creation_run map _ l, runAll,
      attempt_bind _ (fun _ => runAll map rest >>= fun _ => last.run map) _ ?_ fun _ => rfl]
    · funext E w
      simp only [bind_eq]
      rcases l.run map E w with ⟨_ | _, _⟩ <;> rfl
    · exact fun _ => creations_run map last rest

end

/-- A look-up is a creation that makes one call. -/
theorem run_eq (map : MapLens String) (l : Lookup) : (l.creation .done).run map = l.run map := by
  rw [creation_run, attempt_bind _ pure _ (fun _ => rfl) fun _ => rfl]
  funext E w
  rw [bind_eq]
  rcases l.run map E w with ⟨_ | _, _⟩ <;> rfl

end Lookup

end ProxySession
