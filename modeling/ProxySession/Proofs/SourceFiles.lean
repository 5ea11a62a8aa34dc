import ProxySession.Proofs.ParentSteps

/-!
# The way up to the source file

A node without a function for its source file is in the file at the end of its chain of parents. Looking at
one parent after the other finds the objects on that chain, up to one that has no parent or to one that stops
the search. The walk through the nodes follows that search step by step: it ends where the search ends, with
the node for the object that was found there, and all that is new afterwards are the nodes on the way.
-/

namespace ProxySession

open Effect

variable {c : ContextId} {f : Value} {n room m : Nat} {w w' w₀ w₁ v₁ : World} {E : Engine}
  {ss ss' : List Sighting} {s : Sighting} {p : Node} {out : Except (Stop SessionError) Sighting}

/-! ## Keys and objects -/

/-- Keys tell the objects of a row apart, from each other and from those that a context has cached. -/
structure Context.Tells (cx : Context) (ss : List Sighting) : Prop where
  apart : ∀ s ∈ ss, ∀ s' ∈ ss, s.key = s'.key → s.object = s'.object
  cached : ∀ s ∈ ss, ∀ v, cx.cached .node s.key = some (.ok v) → v = .object s.object

namespace Context.Tells

variable {cx : Context}

theorem nil : cx.Tells [] where
  apart _ hs := absurd hs List.not_mem_nil
  cached _ hs := absurd hs List.not_mem_nil

/-- Under the key of an object in the row that was seen, the context has that object. -/
theorem cached_of_mem (h : cx.Tells ss) (hr : cx.Ready) (hholds : cx.Holds)
    (hsize : cx.custodian.slots.size + ss'.length ≤ 2 ^ 32) (hsub : ss' ⊆ ss) (hs : s ∈ ss') :
    (cx.seesAll .node ss').cached .node s.key = some (.ok (.object s.object)) := by
  rw [cached_seesAll hr hholds hsize, if_pos rfl]
  cases hget : (cx.identities .node).get? s.key with
  | some handle =>
    obtain ⟨v, hslot⟩ := hholds .node s.key handle hget
    have hcached := cached_of_some hr.isOpen hget hslot
    obtain rfl := h.cached s (hsub hs) v hcached
    rw [hcached]
    rfl
  | none =>
    have hfind : (ss'.find? fun t => t.key == s.key).isSome = true :=
      List.find?_isSome.2 ⟨s, hs, beq_self_eq_true _⟩
    obtain ⟨t, ht⟩ := Option.isSome_iff_exists.1 hfind
    have hkey : t.key = s.key := by simpa using List.find?_some ht
    have hobject := h.apart t (hsub (List.mem_of_find?_eq_some ht)) s (hsub hs) hkey
    rw [Context.cached, hget, ht, Option.map_none, Option.none_or, Option.map_some, hobject]

/-- The node under that key stands for the object. -/
theorem node_for (h : cx.Tells ss) (hr : cx.Ready) (hholds : cx.Holds)
    (hsize : cx.custodian.slots.size + ss'.length ≤ 2 ^ 32) (hsub : ss' ⊆ ss) (hs : s ∈ ss')
    {handle : HandleId} (hget : ((cx.seesAll .node ss').identities .node).get? s.key = some handle) :
    Node.For c (cx.seesAll .node ss') s ⟨c, s.key, handle⟩ := by
  have hcached := h.cached_of_mem hr hholds hsize hsub hs
  rw [Context.cached, hget, Option.map_some, Option.some_inj] at hcached
  exact ⟨rfl, rfl, hget, hcached⟩

end Context.Tells

/-- The view reads the kind, and once more if it is another one. -/
theorem Node.sourceFileView_eq (p : Node) : p.sourceFileView =
    p.syntaxKind >>= fun k => if k.name == "SourceFile" then pure ⟨p⟩ else
      p.syntaxKind >>= fun k' => fail (.kindMismatch "SourceFile" k'.name) := by
  funext E w
  rw [sourceFileView, asSourceFile, isKind, bind_assoc, bind_assoc, bind_eq, bind_eq]
  rcases p.syntaxKind E w with ⟨stop | k, w'⟩
  · rfl
  · rcases hk : k.name == "SourceFile" <;> simp only [bind_eq, hk] <;> rfl

namespace ContextId

/-! ## Kinds -/

/-- The kind that is found at an object. -/
def kindSight (c : ContextId) (o : ObjectRef) : Operation SyntaxKind := do
  let v ← c.property o "kind"
  (Conversion.toSyntaxKind c).required v

theorem toSyntaxKind_alike (v : Value) :
    c.Alike w (Engine.ofFuel n room) ((Conversion.toSyntaxKind c).required v) := by
  have hcode (kinds : KindTable) :
      c.Alike w (Engine.ofFuel n room) (Conversion.toCode "SyntaxKind" kinds.kind? v) := by
    refine .of_repeatable ?_ ?_ <;> unfold Conversion.toCode Conversion.toInt32 Conversion.ofOption <;> grind
  unfold Conversion.required
  split
  · exact .of_repeatable (ForeignActs.fail _).repeatable (ForeignActs.fail _).nonRetaining
  · exact .knows Context.kinds (fun kinds => (hcode kinds).nonRetaining)
      (fun ss _ _ _ => Context.seesAll_kinds .node _ ss) (hcode (w.context c).kinds)

theorem kindSight_nonRetaining (o : ObjectRef) : (c.kindSight o).NonRetaining := by
  unfold kindSight Conversion.required
  grind

theorem kindSight_alike (o : ObjectRef) : c.Alike w (Engine.ofFuel n room) (c.kindSight o) :=
  (property_alike o "kind").bind toSyntaxKind_alike

/-- The accessor of the kind finds the kind of the object. -/
theorem Beside.syntaxKind (hb : c.Beside w ss m w₁ v₁)
    (hp : Node.For c ((w.context c).seesAll .node ss) s p) (n room : Nat)
    (he : (c.kindSight s.object (Engine.ofFuel n room) w₁).2.hostCalls = w₁.hostCalls) :
    (Node.syntaxKind p (Engine.ofFuel n room) v₁).1 =
        (c.kindSight s.object (Engine.ofFuel n room) w₁).1.mapError (Stop.map (.located "Node.kind")) ∧
      c.Beside w ss m (c.kindSight s.object (Engine.ofFuel n room) w₁).2
        (Node.syntaxKind p (Engine.ofFuel n room) v₁).2 := by
  obtain ⟨rfl, -, -, hobject⟩ := hp
  exact Alike.access hb hobject "Node" "kind" p.context.kindSight (kindSight_alike s.object) he

/-- What is made of an object that has no parent: it is a source file by its kind, or it is of another kind,
which is read once more for the failure to name it, or its kind cannot be read. -/
inductive Judged (c : ContextId) (E : Engine) (s : Sighting) (w : World) :
    Except (Stop SessionError) Sighting → World → Prop
  | file {k : SyntaxKind} {w' : World} : c.kindSight s.object E w = (.ok k, w') →
      k.name = "SourceFile" → Judged c E s w (.ok s) w'
  | other {k k' : SyntaxKind} {w₁ w' : World} : c.kindSight s.object E w = (.ok k, w₁) →
      k.name ≠ "SourceFile" → c.kindSight s.object E w₁ = (.ok k', w') →
      Judged c E s w (.error (.failed (.kindMismatch "SourceFile" k'.name))) w'
  | unread {stop : Stop SessionError} {w' : World} : c.kindSight s.object E w = (.error stop, w') →
      Judged c E s w (.error (stop.map (.located "Node.kind"))) w'
  | lost {k : SyntaxKind} {stop : Stop SessionError} {w₁ w' : World} :
      c.kindSight s.object E w = (.ok k, w₁) → k.name ≠ "SourceFile" →
      c.kindSight s.object E w₁ = (.error stop, w') →
      Judged c E s w (.error (stop.map (.located "Node.kind"))) w'

/-- The search for the source file of an object looks at its parent, at the parent of that, and so on. It
ends with an object that has no parent, or with a parent that is no object or has no key. -/
inductive Searches (c : ContextId) (E : Engine) :
    Sighting → World → List Sighting → Except (Stop SessionError) Sighting → World → Prop
  | root {s : Sighting} {w w₁ w' : World} {out : Except (Stop SessionError) Sighting} :
      c.parentSight s.object E w = (.ok none, w₁) → c.Judged E s w₁ out w' → Searches c E s w [] out w'
  | link {s p : Sighting} {w w₁ w' : World} {ss : List Sighting} {out : Except (Stop SessionError) Sighting} :
      c.parentSight s.object E w = (.ok (some p), w₁) → Searches c E p w₁ ss out w' →
      Searches c E s w (p :: ss) out w'
  | broken {s : Sighting} {w w' : World} {stop : Stop SessionError} :
      c.parentSight s.object E w = (.error stop, w') →
      Searches c E s w [] (.error (stop.map (.located "Node.parent"))) w'

theorem Judged.calls (h : c.Judged (Engine.ofFuel n room) s w out w') : w.hostCalls ≤ w'.hostCalls := by
  have hretains := kindSight_nonRetaining (c := c) s.object
  cases h with
  | file hrun _ => exact hretains.calls_le hrun
  | other hrun _ hagain => exact (hretains.calls_le hrun).trans (hretains.calls_le hagain)
  | unread hrun => exact hretains.calls_le hrun
  | lost hrun _ hagain => exact (hretains.calls_le hrun).trans (hretains.calls_le hagain)

theorem Searches.calls (h : c.Searches (Engine.ofFuel n room) s w ss out w') :
    w.hostCalls ≤ w'.hostCalls := by
  induction h with
  | root hrun hjudged => exact ((parentSight_nonRetaining _).calls_le hrun).trans hjudged.calls
  | link hrun _ ih => exact ((parentSight_nonRetaining _).calls_le hrun).trans ih
  | broken hrun => exact (parentSight_nonRetaining _).calls_le hrun

/-- The walk through the nodes answers a search: with the source file of the node for what was found, or as
the search stops. Note was taken of some nodes on the way. -/
inductive Answers (c : ContextId) (w : World) (ss : List Sighting) (m : Nat) :
    Except (Stop SessionError) Sighting → World → Except (Stop SessionError) SourceFile × World → Prop
  | file {s : Sighting} {p : Node} {w' v : World} : c.Beside w ss m w' v →
      Node.For c ((w.context c).seesAll .node ss) s p → Answers c w ss m (.ok s) w' (.ok ⟨p⟩, v)
  | stopped {stop : Stop SessionError} {w' v : World} : c.Beside w ss m w' v →
      Answers c w ss m (.error stop) w' (.error stop, v)

/-- A node that has no parent is judged by the kind of its object. -/
theorem Judged.answers (hj : c.Judged (Engine.ofFuel n room) s w₁ out w') (hb : c.Beside w ss m w₁ v₁)
    (hp : Node.For c ((w.context c).seesAll .node ss) s p) (he : w'.hostCalls = w₁.hostCalls) :
    c.Answers w ss m out w' (Node.sourceFileView p (Engine.ofFuel n room) v₁) := by
  have hread {u u' v : World} {r : Except (Stop SessionError) SyntaxKind} (hb : c.Beside w ss m u v)
      (hrun : c.kindSight s.object (Engine.ofFuel n room) u = (r, u')) (he : u'.hostCalls = u.hostCalls) :
      ∃ v', Node.syntaxKind p (Engine.ofFuel n room) v =
        (r.mapError (Stop.map (.located "Node.kind")), v') ∧ c.Beside w ss m u' v' := by
    obtain ⟨hresult, hb'⟩ := hb.syntaxKind hp n room (by rw [hrun]; exact he)
    rw [hrun] at hresult hb'
    exact ⟨_, Prod.ext hresult rfl, hb'⟩
  rw [Node.sourceFileView_eq]
  cases hj with
  | file hrun hk =>
    obtain ⟨v', hkind, hb'⟩ := hread hb hrun he
    rw [bind_of_ok hkind, hk]
    exact .file hb' hp
  | @other k k' w₂ _ hrun hk hagain =>
    obtain ⟨hfirst, hsecond⟩ := World.hostCalls_parts ((kindSight_nonRetaining s.object).calls_le hrun)
      ((kindSight_nonRetaining s.object).calls_le hagain) he
    obtain ⟨v₂, hkind, hb₂⟩ := hread hb hrun hfirst
    obtain ⟨v', hkind', hb'⟩ := hread hb₂ hagain hsecond
    rw [bind_of_ok hkind, if_neg (by simpa using hk), bind_of_ok hkind']
    exact .stopped hb'
  | unread hrun =>
    obtain ⟨v', hkind, hb'⟩ := hread hb hrun he
    rw [bind_of_error hkind]
    exact .stopped hb'
  | @lost k stop w₂ _ hrun hk hagain =>
    obtain ⟨hfirst, hsecond⟩ := World.hostCalls_parts ((kindSight_nonRetaining s.object).calls_le hrun)
      ((kindSight_nonRetaining s.object).calls_le hagain) he
    obtain ⟨v₂, hkind, hb₂⟩ := hread hb hrun hfirst
    obtain ⟨v', hkind', hb'⟩ := hread hb₂ hagain hsecond
    rw [bind_of_ok hkind, if_neg (by simpa using hk), bind_of_error hkind']
    exact .stopped hb'

/-- From a node on, the walk answers the search from its object on. -/
theorem Searches.answers (hf : c.NumbersBy f w) (hholds : (w.context c).Holds) (ss : List Sighting)
    (h : c.Searches (Engine.ofFuel n room) s w₁ ss' out w') (htells : (w.context c).Tells (ss ++ ss'))
    (hsize : (w.context c).custodian.slots.size + (ss ++ ss').length ≤ 2 ^ 32)
    (hb : c.Beside w ss m w₁ v₁) (hp : Node.For c ((w.context c).seesAll .node ss) s p)
    (he : w'.hostCalls = w₁.hostCalls) {k : Nat} (hk : ss'.length < k) :
    c.Answers w (ss ++ ss') m out w'
      ((Node.lastParent k p >>= Node.sourceFileView) (Engine.ofFuel n room) v₁) := by
  induction h generalizing ss p v₁ k with
  | @root s w₁ w₂ w' out hlook hjudged =>
    obtain ⟨k, rfl⟩ := Nat.exists_eq_succ_of_ne_zero (Nat.ne_zero_of_lt hk)
    obtain ⟨hfirst, hlast⟩ :=
      World.hostCalls_parts ((parentSight_nonRetaining s.object).calls_le hlook) hjudged.calls he
    obtain ⟨_, v₂, hrun, hstep⟩ := hb.ascends hf hp hlook hfirst
    cases hstep with
    | top hb₂ =>
      rw [Node.lastParent, bind_assoc, bind_of_ok hrun, List.append_nil]
      exact hjudged.answers hb₂ hp hlast
  | @link s q w₁ w₂ w' ss' out hlook hrest ih =>
    obtain ⟨k, rfl⟩ := Nat.exists_eq_succ_of_ne_zero (Nat.ne_zero_of_lt hk)
    obtain ⟨hfirst, hlast⟩ :=
      World.hostCalls_parts ((parentSight_nonRetaining s.object).calls_le hlook) hrest.calls he
    obtain ⟨_, v₂, hrun, hstep⟩ := hb.ascends hf hp hlook hfirst
    -- The node that was found joins those that note was taken of, and the walk goes on from it.
    have happend : ss ++ q :: ss' = (ss ++ [q]) ++ ss' := by rw [List.append_assoc, List.singleton_append]
    rw [happend] at htells hsize ⊢
    cases hstep with
    | @parent _ handle _ _ hb₂ hget =>
      have hfor := htells.node_for (c := c) hf.ready hholds (by rw [List.length_append] at hsize; omega)
        (List.subset_append_left _ ss') (List.mem_append_right ss (List.mem_singleton_self q)) hget
      rw [Node.lastParent, bind_assoc, bind_of_ok hrun]
      exact ih _ htells hsize hb₂ hfor hlast (Nat.lt_of_succ_lt_succ hk)
  | @broken s w₁ w' stop hlook =>
    obtain ⟨k, rfl⟩ := Nat.exists_eq_succ_of_ne_zero (Nat.ne_zero_of_lt hk)
    obtain ⟨_, v₂, hrun, hstep⟩ := hb.ascends hf hp hlook he
    cases hstep with
    | stopped hb₂ =>
      rw [Node.lastParent, bind_assoc, bind_of_error hrun, List.append_nil]
      exact .stopped hb₂

/-! ## The answer of the accessor -/

/-- Whether an object has a function under a name. -/
def methodSight (c : ContextId) (o : ObjectRef) (name : String) : Operation Bool := do
  let v ← c.property o name
  pure ((← world).heap.isFunction v)

theorem methodSight_nonRetaining (o : ObjectRef) (name : String) : (c.methodSight o name).NonRetaining := by
  unfold methodSight
  grind

theorem methodSight_alike (o : ObjectRef) (name : String) :
    c.Alike w (Engine.ofFuel n room) (c.methodSight o name) := by
  refine (property_alike o name).bind fun v => .of_repeatable ?_ ?_ <;> grind

/-- What is so after the source file was asked for, by a search that found some objects on its way. -/
structure Found (c : ContextId) (w : World) (ss : List Sighting)
    (out : Except (Stop SessionError) Sighting) (w' : World)
    (run : Except (Stop SessionError) SourceFile × World) : Prop where
  /-- The source file is the view of the node for the object that was found. -/
  file : ∀ s, out = .ok s → ∃ p, Node.For c (run.2.context c) s p ∧ run.1 = .ok ⟨p⟩
  stopped : ∀ stop, out = .error stop → run.1 = .error stop
  /-- Foreign code finds what it finds after the search, so nothing more was read. -/
  outlook : run.2.outlook = w'.outlook
  cached : ∀ s ∈ ss, (run.2.context c).cached .node s.key = some (.ok (.object s.object))
  kept : ∀ k key, k ≠ .node ∨ key ∉ ss.map Sighting.key →
    (run.2.context c).cached k key = (w.context c).cached k key
  entries : ((run.2.context c).identities .node).size =
    ((w.context c).identities .node).size + ((w.context c).newKeys .node ss).card
  handles : (run.2.context c).custodian.liveHandles =
    (w.context c).custodian.liveHandles + ((w.context c).newKeys .node ss).card

theorem Answers.found {run : Except (Stop SessionError) SourceFile × World}
    (h : c.Answers w ss m out w' run) (hr : (w.context c).Ready) (hholds : (w.context c).Holds)
    (htells : (w.context c).Tells ss)
    (hsize : (w.context c).custodian.slots.size + ss.length ≤ 2 ^ 32) : c.Found w ss out w' run := by
  have hb : c.Beside w ss m w' run.2 := by
    cases h with
    | file hb _ => exact hb
    | stopped hb => exact hb
  obtain ⟨failures, tag, hcontext⟩ := hb.took
  have hidentities (k : ProxyKind) :
      (run.2.context c).identities k = ((w.context c).seesAll .node ss).identities k := by
    rw [hcontext, Context.annotated, Context.counted_identities, Context.booked_identities]
  have hcustodian : (run.2.context c).custodian = ((w.context c).seesAll .node ss).custodian := by
    rw [hcontext]
    rfl
  have hcached (k : ProxyKind) (key : Int64) :
      (run.2.context c).cached k key = ((w.context c).seesAll .node ss).cached k key := by
    rw [Context.cached, hidentities, hcustodian]
    rfl
  obtain ⟨hentries, hhandles⟩ := (w.context c).seesAll_counts .node ss
  refine ⟨?found, ?failure, hb.outlook, fun s hs => ?cached, fun k key hkey => ?kept, ?entries, ?handles⟩
  case found =>
    rintro s rfl
    cases h with
    | @file _ p _ _ _ hp =>
      refine ⟨p, ⟨hp.context, hp.key, ?_, ?_⟩, rfl⟩
      · rw [hidentities]
        exact hp.entry
      · rw [hcustodian]
        exact hp.object
  case failure =>
    rintro stop rfl
    cases h with
    | stopped _ => rfl
  case cached =>
    rw [hcached]
    exact htells.cached_of_mem hr hholds hsize (List.Subset.refl ss) hs
  case kept =>
    rw [hcached, Context.cached_seesAll hr hholds hsize]
    split
    · next hk =>
      subst hk
      have hnone : (ss.find? fun s => s.key == key) = none := by
        have hunseen := hkey.resolve_left fun h => h rfl
        rw [List.find?_eq_none]
        intro s hs hsame
        exact hunseen (List.mem_map.2 ⟨s, hs, by simpa using hsame⟩)
      rw [hnone, Option.map_none, Option.or_none]
    · rw [Option.or_none]
  case entries => rw [hidentities, hentries]
  case handles => rw [hcustodian, hhandles]

end ContextId

namespace Node

/-- A node without a function for its source file walks up to it. -/
theorem sourceFile_run (hp : For c (w.context c) s p) (hr : (w.context c).Ready) (n room : Nat)
    (hmethod : c.methodSight s.object "getSourceFile" (Engine.ofFuel n room) w = (.ok false, w₀))
    (he : w₀.hostCalls = w.hostCalls) : ∃ v₀,
      p.core.hasMethod "getSourceFile" (Engine.ofFuel n room) w = (.ok false, v₀) ∧
        c.Beside w [] (w.context c).references w₀ v₀ ∧
          p.sourceFile (Engine.ofFuel n room) w =
            (p.lastParent n >>= sourceFileView) (Engine.ofFuel n room) v₀ := by
  have hfuel : (Engine.ofFuel n room).fuel = n := by cases n <;> rfl
  have hb : c.Beside w [] (w.context c).references w w := .refl hr.alive
  obtain ⟨rfl, -, -, hobject⟩ := hp
  obtain ⟨hresult, hb'⟩ := ContextId.Alike.access hb hobject "Node" "getSourceFile"
    (p.context.methodSight · "getSourceFile") (ContextId.methodSight_alike s.object "getSourceFile")
    (by rw [hmethod]; exact he)
  rw [hmethod] at hresult hb'
  have hrun : p.core.hasMethod "getSourceFile" (Engine.ofFuel n room) w =
      (.ok false, (p.core.hasMethod "getSourceFile" (Engine.ofFuel n room) w).2) := Prod.ext hresult rfl
  refine ⟨_, hrun, hb', ?_⟩
  rw [sourceFile, bind_of_ok hrun]
  change (p.lastParent (Engine.ofFuel n room).fuel >>= sourceFileView) _ _ = _
  rw [hfuel]

/-- In an open context, the accessor of the source file ends as the search for it does, as long as foreign
code does not call back and keys tell objects apart. Just the objects on the way to the end are cached
then, and those that were not are retained. -/
theorem sourceFile_found {F : Multiset Reference} (hs : w.Sound F) (hv : c.index < w.contexts.size)
    (ho : (w.context c).custodian.closed = false) (hp : For c (w.context c) s p)
    (hmethod : c.methodSight s.object "getSourceFile" (Engine.ofFuel n room) w = (.ok false, w₀))
    (h : c.Searches (Engine.ofFuel n room) s w₀ ss out w') (he : w'.hostCalls = w.hostCalls)
    (htells : (w.context c).Tells ss)
    (hsize : (w.context c).custodian.slots.size + ss.length ≤ 2 ^ 32) (hn : ss.length < n) :
    c.Found w ss out w' (p.sourceFile (Engine.ofFuel n room) w) := by
  have hslots : (w.context c).custodian.slots.size ≤ 2 ^ 32 := by omega
  have hholds := hs.holds hv ho hslots
  obtain ⟨f, hf⟩ := hs.numbersBy hv ho hslots
  obtain ⟨hfirst, hrest⟩ := World.hostCalls_parts
    ((ContextId.methodSight_nonRetaining s.object "getSourceFile").calls_le hmethod) h.calls he
  obtain ⟨v₀, -, hb, hrun⟩ := sourceFile_run hp hf.ready n room hmethod hfirst
  rw [hrun]
  have hanswers := h.answers hf hholds [] htells hsize hb hp hrest hn
  exact hanswers.found hf.ready hholds htells hsize

end Node

namespace Session

/-- Chains of parents: one through a block to a source file, one to a text, and one that goes round. -/
def chainHeap : Heap :=
  let reference (name : String) (i : Nat) : PropertyDescription :=
    ⟨.ofString name, .value (.object ⟨i⟩), true⟩
  let number (name : String) (n : Int32) : PropertyDescription := ⟨.ofString name, .value (.int n), true⟩
  .ofDescriptions
    [⟨"program", .plain, []⟩, ⟨"checker", .plain, []⟩,
      ⟨"createScanner", .function (.value .undefined), []⟩,
      ⟨"getNodeId", .function (.get (.argument 0) (.value (.ofString "id"))), []⟩,
      ⟨"syntaxKinds", .plain, [number "SourceFile" 308, number "Block" 242]⟩,
      ⟨"parse", .plain, [reference "program" 0, reference "checker" 1, reference "createScanner" 2,
        reference "getNodeId" 3, reference "syntaxKinds" 4]⟩,
      ⟨"leaf", .plain, [number "id" 1, reference "parent" 7]⟩,
      ⟨"block", .plain, [number "id" 2, number "kind" 242, reference "parent" 8]⟩,
      ⟨"file", .plain, [number "id" 3, number "kind" 308]⟩,
      ⟨"stray", .plain, [number "id" 4, ⟨.ofString "parent", .value (.ofString "file"), true⟩]⟩,
      ⟨"ring", .plain, [number "id" 5, reference "parent" 11]⟩,
      ⟨"round", .plain, [number "id" 6, reference "parent" 10]⟩] #[]

/-- The context is open and has all nodes but the file. -/
def chainWorld : World := last 3 chainHeap []
  [.mk (.open (.value (.object ⟨5⟩)) {}) "cx" (some "cx"),
    .mk (.resolve .node (.value (.object ⟨6⟩))) "cx" (some "leaf"),
    .mk (.resolve .node (.value (.object ⟨7⟩))) "cx" (some "block"),
    .mk (.resolve .node (.value (.object ⟨9⟩))) "cx" (some "stray"),
    .mk (.resolve .node (.value (.object ⟨10⟩))) "cx" (some "ring"),
    .mk (.resolve .node (.value (.object ⟨11⟩))) "cx" (some "round")]

def leafNode : Node := ⟨⟨0⟩, 1, ⟨5⟩⟩

def strayNode : Node := ⟨⟨0⟩, 4, ⟨7⟩⟩

def ringNode : Node := ⟨⟨0⟩, 5, ⟨8⟩⟩

def roundNode : Node := ⟨⟨0⟩, 6, ⟨9⟩⟩

/-- The nodes of the sample and their objects. -/
def chainNodes : List (Node × ObjectRef) :=
  [(leafNode, ⟨6⟩), (strayNode, ⟨9⟩), (ringNode, ⟨10⟩), (roundNode, ⟨11⟩)]

theorem chainWorld_open : (⟨0⟩ : ContextId).index < chainWorld.contexts.size ∧
    (chainWorld.context ⟨0⟩).custodian.closed = false ∧ (chainWorld.context ⟨0⟩).references ≠ 0 ∧
    (chainWorld.context ⟨0⟩).custodian.slots.size < 2 ^ 8 := by
  decide +kernel

theorem chainWorld_nodes : ∀ e ∈ chainNodes, e.1.context = ⟨0⟩ ∧
    ((chainWorld.context ⟨0⟩).identities .node).get? e.1.key = some e.1.handle ∧
    ((chainWorld.context ⟨0⟩).custodian.get e.1.handle).toOption = some (.object e.2) := by
  decide +kernel

theorem get_of_toOption {ρ : Type} {custodian : Custodian ρ} {handle : HandleId} {v : Value}
    (h : (custodian.get handle).toOption = some v) : custodian.get handle = .ok v :=
  congrArg Prod.fst (run_of_toOption (x := (custodian.get handle, ())) h)

theorem chainWorld_for (p : Node) (o : ObjectRef) (h : (p, o) ∈ chainNodes) :
    Node.For ⟨0⟩ (chainWorld.context ⟨0⟩) ⟨o, p.key⟩ p := by
  obtain ⟨hcontext, hentry, hobject⟩ := chainWorld_nodes _ h
  exact ⟨hcontext, rfl, hentry, get_of_toOption hobject⟩

/-- The block on the way from the leaf to its source file was cached, so the file is all that is retained.
A parent that is a text stops the walk. -/
theorem sourceFile_found_sample :
    (∃ p w', leafNode.sourceFile (Engine.ofFuel 3 stackSize) chainWorld = (.ok ⟨p⟩, w') ∧
      Node.For ⟨0⟩ (w'.context ⟨0⟩) ⟨⟨8⟩, 3⟩ p ∧
      (w'.context ⟨0⟩).custodian.liveHandles = (chainWorld.context ⟨0⟩).custodian.liveHandles + 1) ∧
    ∃ w', strayNode.sourceFile (Engine.ofFuel 3 stackSize) chainWorld =
        (.error (.failed (.located "Node.parent" (.shapeMismatch "Node" "string"))), w') ∧
      (w'.context ⟨0⟩).custodian.liveHandles = (chainWorld.context ⟨0⟩).custodian.liveHandles := by
  let E := Engine.ofFuel 3 stackSize
  let row : List Sighting := [⟨⟨7⟩, 2⟩, ⟨⟨8⟩, 3⟩]
  have hsound : chainWorld.Sound 0 := (last_transitions.moves.sound_later Holdings.empty_sound).1
  obtain ⟨hv, ho, -, hsize⟩ := chainWorld_open
  constructor
  · let w₀ := (ContextId.methodSight ⟨0⟩ ⟨6⟩ "getSourceFile" E chainWorld).2
    let w₁ := (ContextId.parentSight ⟨0⟩ ⟨6⟩ E w₀).2
    let w₂ := (ContextId.parentSight ⟨0⟩ ⟨7⟩ E w₁).2
    let w₃ := (ContextId.parentSight ⟨0⟩ ⟨8⟩ E w₂).2
    have hfacts : (ContextId.methodSight ⟨0⟩ ⟨6⟩ "getSourceFile" E chainWorld).1.toOption = some false ∧
        (ContextId.parentSight ⟨0⟩ ⟨6⟩ E w₀).1.toOption = some (some ⟨⟨7⟩, 2⟩) ∧
        (ContextId.parentSight ⟨0⟩ ⟨7⟩ E w₁).1.toOption = some (some ⟨⟨8⟩, 3⟩) ∧
        (ContextId.parentSight ⟨0⟩ ⟨8⟩ E w₂).1.toOption = some none ∧
        (ContextId.kindSight ⟨0⟩ ⟨8⟩ E w₃).1.toOption = some ⟨308, "SourceFile"⟩ ∧
        (ContextId.kindSight ⟨0⟩ ⟨8⟩ E w₃).2.hostCalls = chainWorld.hostCalls ∧
        (∀ s ∈ row, ((chainWorld.context ⟨0⟩).cached .node s.key).all
          fun r => r.toOption = some (.object s.object)) ∧
        ((chainWorld.context ⟨0⟩).newKeys .node row).card = 1 := by decide +kernel
    obtain ⟨hmethod, hblock, hfile, hroot, hkind, hcalls, hknown, hnew⟩ := hfacts
    have hjudged : ContextId.Judged ⟨0⟩ E ⟨⟨8⟩, 3⟩ w₃ (.ok ⟨⟨8⟩, 3⟩) (ContextId.kindSight ⟨0⟩ ⟨8⟩ E w₃).2 :=
      .file (run_of_toOption hkind) rfl
    have hsearch : ContextId.Searches ⟨0⟩ E ⟨⟨6⟩, 1⟩ w₀ row (.ok ⟨⟨8⟩, 3⟩) _ :=
      .link (run_of_toOption hblock) (.link (run_of_toOption hfile) (.root (run_of_toOption hroot) hjudged))
    have htells : (chainWorld.context ⟨0⟩).Tells row := by
      refine ⟨by decide, fun s hs v hcached => ?_⟩
      have hsame := hknown s hs
      rw [hcached] at hsame
      simpa [Except.toOption] using hsame
    have hfound := Node.sourceFile_found hsound hv ho (chainWorld_for leafNode ⟨6⟩ (by decide))
      (run_of_toOption hmethod) hsearch hcalls htells (by change _ + 2 ≤ _; omega) (by decide)
    generalize leafNode.sourceFile (Engine.ofFuel 3 stackSize) chainWorld = run at hfound ⊢
    obtain ⟨p, hp, hrun⟩ := hfound.file _ rfl
    refine ⟨p, _, Prod.ext hrun rfl, hp, ?_⟩
    rw [hfound.handles, hnew]
  · let w₀ := (ContextId.methodSight ⟨0⟩ ⟨9⟩ "getSourceFile" E chainWorld).2
    have hfacts : (ContextId.methodSight ⟨0⟩ ⟨9⟩ "getSourceFile" E chainWorld).1.toOption = some false ∧
        failure? (ContextId.parentSight ⟨0⟩ ⟨9⟩ E w₀).1 = some (.shapeMismatch "Node" "string") ∧
        (ContextId.parentSight ⟨0⟩ ⟨9⟩ E w₀).2.hostCalls = chainWorld.hostCalls ∧
        ((chainWorld.context ⟨0⟩).newKeys .node []).card = 0 := by decide +kernel
    obtain ⟨hmethod, htext, hcalls, hnew⟩ := hfacts
    have hsearch : ContextId.Searches ⟨0⟩ E ⟨⟨9⟩, 4⟩ w₀ [] _ _ := .broken (run_of_failure htext)
    have hfound := Node.sourceFile_found hsound hv ho (chainWorld_for strayNode ⟨9⟩ (by decide))
      (run_of_toOption hmethod) hsearch hcalls .nil (by rw [List.length_nil]; omega) (by decide)
    generalize strayNode.sourceFile (Engine.ofFuel 3 stackSize) chainWorld = run at hfound ⊢
    refine ⟨_, Prod.ext (hfound.stopped _ rfl) rfl, ?_⟩
    rw [hfound.handles, hnew, Nat.add_zero]

end Session

end ProxySession
