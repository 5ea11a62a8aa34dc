import ProxySession.Proofs.Identity
import ProxySession.Proofs.TokenIdentity
import ProxySession.Proofs.Visits
import ProxySession.Proofs.Walks

/-!
# The children of a node

The children of a node are what its walker visited. Only after the walker has returned, the first arguments
of the visitor's calls are resolved one after the other, up to the first one that is no object or has no
key, and what was resolved by then stays in the identity map. If the walker throws, nothing is resolved.
-/

namespace ProxySession

open Effect

namespace ContextId

variable {c : ContextId} {k : ProxyKind} {E : Engine} {v : Value} {w w' : World} {stop : Stop SessionError}

/-! ## Values that do not resolve -/

/-- Why a value gets no proxy: it is no object, its key cannot be computed, or the context was closed. -/
inductive Unresolved (c : ContextId) (k : ProxyKind) (E : Engine) (v : Value) (w : World) :
    Stop SessionError → World → Prop
  | noObject (hv : ∀ r, v ≠ .object r) :
    Unresolved c k E v w (.failed (.shapeMismatch k.name (w.heap.typeName v))) w
  | noKey {r stop w'} (hv : v = .object r) (hkey : c.identityKey k r E w = (.error stop, w')) :
    Unresolved c k E v w stop w'
  | closed {r key w'} (hv : v = .object r) (hkey : c.identityKey k r E w = (.ok key, w'))
    (hc : (w'.context c).custodian.closed = true) :
    Unresolved c k E v w (.failed (.lifetime (.retainAfterClose (w'.context c).custodian.name))) w'

theorem unresolved_of_error (h : c.resolve k v E w = (.error stop, w')) :
    c.Unresolved k E v w stop w' := by
  cases v with
  | object r =>
    rw [resolve_object] at h
    rcases bind_error h with hkey | ⟨key, w₁, hkey, hsettle⟩
    · exact .noKey rfl hkey
    · obtain ⟨_, _, _, hrun, _⟩ | ⟨_, hc, hrun⟩ | ⟨_, _, _, hrun, _⟩ := settle_cases c k r key E w₁ <;>
        rw [hrun] at hsettle <;> cases hsettle
      exact .closed rfl hkey hc
  | _ =>
    rw [resolve_of_ne_object (by simp)] at h
    cases h
    exact .noObject (by simp)

/-! ## Resolving one value after the other -/

/-- The nodes are those of the values, as far as they go: each was handed out for an object, and an open
context keeps it in its identity map. -/
def Caches (c : ContextId) (vs : List Value) (ns : List Node) (w : World) : Prop :=
  ∀ i (hi : i < ns.length), ∃ r, vs[i]? = some (.object r) ∧ ns[i].context = c ∧
    ⟨.node, r, ns[i].key, ns[i]⟩ ∈ w.resolutions ∧ ((w.context c).custodian.closed = false →
      ((w.context c).identities .node).get? ns[i].key = some ns[i].handle)

/-- The step that resolves the value at a place. -/
def resolveAt (c : ContextId) (vs : List Value) (i : Nat) : Operation Node :=
  c.resolve .node (vs.getD i default)

variable {G : Multiset Reference} {fuel room : Nat} {vs : List Value} {ns : List Node}

theorem caches_of_recorded (hs : w.Sound G) (h : ∀ i (hi : i < ns.length), ∃ r,
    vs[i]? = some (.object r) ∧ ns[i].context = c ∧ ⟨.node, r, ns[i].key, ns[i]⟩ ∈ w.resolutions) :
    c.Caches vs ns w := by
  intro i hi
  obtain ⟨r, hv, hcontext, hρ⟩ := h i hi
  refine ⟨r, hv, hcontext, hρ, fun ho => ?_⟩
  subst hcontext
  have hmem : ⟨.node, r, ns[i].key, ns[i]⟩ ∈ w.toHoldings.resolutionsOf ns[i].context :=
    List.mem_filter.2 ⟨Array.mem_toList_iff.2 hρ, by simp⟩
  exact ((hs.alive _ (hs.resolutions _ hρ) ho).keeps.proxies _ hmem).2

/-- A later world caches them, too. -/
theorem Caches.later {G' : Multiset Reference} (h : c.Caches vs ns w) (hs : w.Sound G)
    (hh : Headway G w G' w') : c.Caches vs ns w' := by
  obtain ⟨hs', hlater⟩ := hh.moves.sound_later hs
  refine caches_of_recorded hs' fun i hi => ?_
  obtain ⟨r, hv, hcontext, hρ, -⟩ := h i hi
  obtain ⟨new, hnew, -⟩ := hlater.resolutions
  refine ⟨r, hv, hcontext, Array.mem_toList_iff.1 ?_⟩
  rw [hnew]
  exact List.mem_append_left _ (Array.mem_toList_iff.2 hρ)

theorem resolve_headway (hc : .context c ∈ G) (v : Value) (fuel room : Nat) (w : World) :
    Headway G w G (c.resolve .node v (Engine.ofFuel fuel room) w).2 := by
  have hneutral : (c.resolve .node v).Neutral [.context c] := resolve_neutral (by simp) .node v
  exact (hneutral _ (Engine.ofFuel_sound fuel room) G w (by simpa using hc)).toHeadway

/-- Each step leaves what the earlier ones put on record, and puts its own node there. -/
theorem resolved_caches (hs : w.Sound G) (hc : .context c ∈ G)
    (hv : Visited (c.resolveAt vs) (Engine.ofFuel fuel room) w ns w') (hlength : ns.length ≤ vs.length) :
    Headway G w G w' ∧ c.Caches vs ns w' := by
  induction hv with
  | start => exact ⟨Progress.refl.toHeadway, nofun⟩
  | @next as w₁ a w₂ _ hstep ih =>
    rw [List.length_append, List.length_singleton] at hlength
    obtain ⟨hbefore, hcaches⟩ := ih (by omega)
    have hs₁ := (hbefore.moves.sound_later hs).1
    have hlast : Headway G w₁ G w₂ := by
      have hresolve := resolve_headway hc (vs.getD as.length default) fuel room w₁
      rw [resolveAt] at hstep
      rwa [hstep] at hresolve
    have hs₂ := (hlast.moves.sound_later hs₁).1
    obtain ⟨r, key, w₃, hobject, -, hcontext, rfl, hrecord, -⟩ :=
      resolve_lookedUp (Holdings.valid_of_owned hs₁ hc) hstep
    refine ⟨hbefore.trans hlast, caches_of_recorded hs₂ (forall_getElem_concat (P := fun i (n : Node) => ∃ r,
      vs[i]? = some (.object r) ∧ n.context = c ∧ ⟨.node, r, n.key, n⟩ ∈ w₂.resolutions) (fun i hi => ?_) ?_)⟩
    · obtain ⟨r', hv', hcontext', hρ', -⟩ := hcaches.later hs₁ hlast i hi
      exact ⟨r', hv', hcontext', hρ'⟩
    · refine ⟨r, ?_, hcontext, ?_⟩
      · have hin : as.length < vs.length := by omega
        rw [← hobject, List.getElem?_eq_getElem hin, List.getElem_eq_getD default]
      · rw [hrecord]
        exact Array.mem_push_self

theorem Unresolved.headway {E : Engine} (h : c.Unresolved k E v w stop w') (hE : E.Sound) :
    Headway G w G w' := by
  have hkey (r : ObjectRef) : Headway G w G (c.identityKey k r E w).2 := identityKey_headway hE k r G
  cases h with
  | noObject hv => exact Progress.refl.toHeadway
  | @noKey r _ _ hv hrun =>
    have hh := hkey r
    rwa [hrun] at hh
  | @closed r _ _ hv hrun hc =>
    have hh := hkey r
    rwa [hrun] at hh

/-! ## Walkers -/

/-- A context whose children are walked by a function. -/
structure HasWalker (c : ContextId) (walker : Value) (w : World) : Prop where
  handle : ∃ handle, (w.context c).forEachChild = some handle ∧
    (w.context c).custodian.get handle = .ok walker
  function : w.heap.isFunction walker = true

theorem HasWalker.present {F : Multiset Reference} (h : c.HasWalker v w) (hs : w.Sound F) :
    (w.context c).references ≠ 0 := by
  obtain ⟨handle, hhandle, hget⟩ := h.handle
  have hvalid : c.index < w.contexts.size := by
    by_contra hout
    have hnone : w.context c = default := getD_of_size_le (Nat.le_of_not_lt hout)
    rw [hnone] at hhandle
    cases hhandle
  exact hs.referenced c hvalid (Custodian.get_ok hget).1

theorem HasWalker.walker_run (h : c.HasWalker v w) (hr : (w.context c).references ≠ 0) :
    Node.walker c E (World.holdContext c w) = (.ok v, World.holdContext c w) := by
  obtain ⟨handle, hhandle, hget⟩ := h.handle
  have hheld := World.holdContext_context hr
  have hvalue : c.value handle E (World.holdContext c w) = (.ok v, World.holdContext c w) := by
    rw [value, world_bind, hheld, hget]
    rfl
  have hfunction : Operation.function v E (World.holdContext c w) = (.ok v, World.holdContext c w) := by
    rw [Operation.function_eq, if_pos (show (World.holdContext c w).heap.isFunction v = true from h.function)]
  rw [Node.walker, world_bind, hheld, hhandle]
  exact (bind_of_ok hvalue).trans hfunction

end ContextId

/-- What is left of a context that is given back is what it was before, as long as it stays open. -/
theorem World.dropContext_identities {c : ContextId} {w : World} (hr : (w.context c).references ≠ 0)
    (ho : ((dropContext c w).context c).custodian.closed = false) (k : ProxyKind) :
    ((dropContext c w).context c).identities k = (w.context c).identities k := by
  have hv : c.index < w.contexts.size := Holdings.valid_of_count (r := .context c) hr
  rw [(dropContext_becomes c w).holdings, Holdings.giveContext_eq] at ho ⊢
  by_cases hlast : (w.context c).references ≤ 1
  · have hvalid : c.index < (w.adjust (· - 1) (.context c)).contexts.size := by
      simpa [Holdings.adjust, Holdings.modifyContext] using hv
    rw [if_pos hlast, Holdings.shutContext_closed hvalid] at ho
    cases ho
  · rw [if_neg hlast]
    refine (congrArg (Context.identities · k) (Holdings.context_modifyContext c c _ w.toHoldings)).trans ?_
    rw [if_pos ⟨rfl, hv⟩]
    cases k <;> rfl

namespace Node

variable {n : Node} {walker : Value} {E : Engine} {w w' w₂ : World} {vs : List Value} {ns : List Node}
  {F : Multiset Reference} {fuel room : Nat}

/-! ## What comes of a walk -/

/-- The children are what is collected in the walk, or else what stops the walk stops them. -/
theorem children_of_walk (hr : (w.context n.context).references ≠ 0)
    (hwalker : Node.walker n.context E (World.holdContext n.context w) =
      (.ok walker, World.holdContext n.context w)) :
    children n E w = match n.walk walker (visitorRef w) E (n.walkStart w) with
      | (.error stop, w₂) =>
        (.error (stop.map (.located "Node.forEachChild")), World.dropContext n.context w₂)
      | (.ok _, w₂) =>
        let (result, w₃) := collect (n.context.resolve .node)
          (w₂.collections.getD w.collections.size []) E (w₂.forget w.collections.size)
        (result.mapError (Stop.map (.located "Node.forEachChild")), World.dropContext n.context w₃) := by
  have hvisited := visited_of_walker n hwalker
  change visited n E _ = (n.walk walker (visitorRef w) >>= fun _ => taken w.collections.size) E
    (n.walkStart w) at hvisited
  rw [children, located_eq, n.context.entering_live hr, bind_eq, hvisited, bind_eq]
  rcases n.walk walker (visitorRef w) E (n.walkStart w) with ⟨stop | a, w₂⟩
  · rfl
  · rfl

/-- Given what the visitor was given and the world in which the walker returned: the nodes that are
resolved, and how it ends. It ends after all values or at the first one that does not resolve. -/
inductive Gathers (n : Node) (E : Engine) (vs : List Value) (w : World) :
    List Node → Except (Stop SessionError) (List Node) × World → Prop
  | all {ns : List Node} {w' : World} (hv : Visited (n.context.resolveAt vs) E w ns w')
      (hlength : ns.length = vs.length) :
    Gathers n E vs w ns (.ok ns, World.dropContext n.context w')
  | stopped {ns : List Node} {w' w'' : World} {v : Value} {stop : Stop SessionError}
    (hv : Visited (n.context.resolveAt vs) E w ns w') (hvalue : vs[ns.length]? = some v)
    (hstop : n.context.Unresolved .node E v w' stop w'') :
    Gathers n E vs w ns
      (.error (stop.map (.located "Node.forEachChild")), World.dropContext n.context w'')

theorem collect_gathers (n : Node) (E : Engine) (vs : List Value) (w : World) : ∃ ns, Gathers n E vs w ns
    ((collect (n.context.resolve .node) vs E w).1.mapError (Stop.map (.located "Node.forEachChild")),
      World.dropContext n.context (collect (n.context.resolve .node) vs E w).2) := by
  have hloop := collect_list_visits (n.context.resolve .node) vs E w
  generalize collect (n.context.resolve .node) vs E w = r at hloop
  cases hloop with
  | done hv hlength => exact ⟨_, .all hv hlength⟩
  | @stopped ns w₁ stop w₂ hv hlt hstop =>
    refine ⟨ns, .stopped hv (v := vs.getD ns.length default) ?_ (ContextId.unresolved_of_error hstop)⟩
    rw [List.getElem?_eq_getElem hlt, List.getElem_eq_getD default]

/-- What a walk that began in `w` and stopped in `w₂` leaves: nothing was resolved, and an open context
has the entries that foreign code left in it. They are those of before if it called back to no host function
that runs steps. -/
structure Barren (n : Node) (w w₂ w' : World) : Prop where
  resolutions : w'.resolutions = w₂.resolutions
  entries : (w'.context n.context).custodian.closed = false → ∀ k,
    (w'.context n.context).identities k = (w₂.context n.context).identities k
  untouched : w'.hostCalls = w.hostCalls → ∃ failures tag,
    w'.context n.context = { w.context n.context with pending := failures, lastTag := tag }

/-- How the children of a node come about: the walk stops, or else what the visitor was given is
resolved. -/
inductive Walked (n : Node) (walker : Value) (E : Engine) (w : World) :
    Except (Stop SessionError) (List Node) × World → Prop
  | stopped {stop : Stop SessionError} {w₂ w' : World}
    (hwalk : n.walk walker (visitorRef w) E (n.walkStart w) = (.error stop, w₂))
    (hbarren : n.Barren w w₂ w') :
    Walked n walker E w (.error (stop.map (.located "Node.forEachChild")), w')
  | returned {a : Value} {w₂ : World} {calls : List (Nat × List Value)} {ns : List Node}
    {r : Except (Stop SessionError) (List Node) × World}
    (hwalk : n.walk walker (visitorRef w) E (n.walkStart w) = (.ok a, w₂))
    (hcalls : w₂.visits.toList = w.visits.toList ++ calls)
    (hgathers : n.Gathers E (givenTo w.collections.size calls) (w₂.forget w.collections.size) ns r)
    (hcaches : n.context.Caches (givenTo w.collections.size calls) ns r.2) : Walked n walker E w r

theorem barren_of_walk (hr : (w.context n.context).references ≠ 0)
    (hr₂ : (w₂.context n.context).references ≠ 0) {stop : Stop SessionError}
    (hwalk : n.walk walker (visitorRef w) (Engine.ofFuel fuel room) (n.walkStart w) = (.error stop, w₂)) :
    n.Barren w w₂ (World.dropContext n.context w₂) where
  resolutions := by
    have hheld := (World.dropContext_becomes n.context w₂).holdings
    exact (congrArg Holdings.resolutions hheld).trans (Holdings.giveContext_resolutions _ _)
  entries := World.dropContext_identities hr₂
  untouched he := by
    have hR := World.KeepsUnless.contextRegime Crossing.isHost n.context
    have hobeys := Engine.ofFuel_keepsUnless n.context fuel room
    have hstart : (World.holdContext n.context w).KeepsUnless Crossing.isHost n.context (n.walkStart w) :=
      .of_holdings List.prefix_rfl rfl
    have hwalked := n.walk_nonRetaining walker (visitorRef w) _ hR _ hobeys (n.walkStart w)
    rw [hwalk] at hwalked
    exact ((hR.keeping hr (hR.trans hstart hwalked)).keepsContext he).context

/-- However it ends, what was resolved by then is cached. -/
theorem Gathers.caches {G : Multiset Reference} {r : Except (Stop SessionError) (List Node) × World}
    (hs : w.Sound (.context n.context ::ₘ G)) (h : n.Gathers (Engine.ofFuel fuel room) vs w ns r) :
    n.context.Caches vs ns r.2 := by
  have hc : .context n.context ∈ .context n.context ::ₘ G := Multiset.mem_cons_self _ _
  have hdrop (w : World) : Headway (.context n.context ::ₘ G) w G (World.dropContext n.context w) :=
    (Progress.giveBack (.context n.context) w).toHeadway
  cases h with
  | all hv hlength =>
    obtain ⟨hh, hcaches⟩ := ContextId.resolved_caches hs hc hv hlength.le
    exact hcaches.later (hh.moves.sound_later hs).1 (hdrop _)
  | stopped hv hvalue hstop =>
    have hlt := (List.getElem?_eq_some_iff.1 hvalue).1
    obtain ⟨hh, hcaches⟩ := ContextId.resolved_caches hs hc hv hlt.le
    exact hcaches.later (hh.moves.sound_later hs).1
      ((hstop.headway (Engine.ofFuel_sound fuel room)).trans (hdrop _))

theorem walk_walking (n : Node) (F : Multiset Reference) (w : World) (walker : Value) (fuel room : Nat) :
    n.Walking F w (n.walk walker (visitorRef w) (Engine.ofFuel fuel room) (n.walkStart w)).2 :=
  Walking.start.after (Engine.ofFuel_sound fuel room) (n.walk_nonRetaining walker (visitorRef w)).neutral

theorem children_walked {heap : Heap} (hw : Session.Attains heap F w)
    (hwalker : n.context.HasWalker walker w) (fuel room : Nat) :
    n.Walked walker (Engine.ofFuel fuel room) w (children n (Engine.ofFuel fuel room) w) := by
  have hr := hwalker.present hw.sound
  have hrun := children_of_walk (E := Engine.ofFuel fuel room) hr (hwalker.walker_run hr)
  have hend := walk_walking n F w walker fuel room
  rcases hwalk : n.walk walker (visitorRef w) (Engine.ofFuel fuel room) (n.walkStart w) with
    ⟨stop | a, w₂⟩
  · rw [hwalk] at hrun hend
    rw [hrun]
    exact .stopped hwalk (barren_of_walk hr (hend.present hw hr) hwalk)
  · rw [hwalk] at hrun
    have hend : n.Walking F w w₂ := by rwa [hwalk] at hend
    obtain ⟨G, hs⟩ := hend.sound hw hr
    obtain ⟨calls, hcalls, hkept⟩ := hend.kept
    obtain ⟨ns, hgathers⟩ := collect_gathers n (Engine.ofFuel fuel room)
      (givenTo w.collections.size calls) (w₂.forget w.collections.size)
    dsimp only at hrun
    rw [hkept] at hrun
    rw [hrun]
    have hs' : (w₂.forget w.collections.size).Sound (.context n.context ::ₘ G) := hs
    exact .returned hwalk hcalls hgathers (hgathers.caches hs')

/-! ## Visiting the children -/

section

variable {σ β : Type} {visit : σ → Node → σ × Option β} {s : σ} {b : Option β} {called : List Node}

/-- The state after elements were visited one after the other. -/
def stateAfter (visit : σ → Node → σ × Option β) (s : σ) (ns : List Node) : σ :=
  ns.foldl (fun s m => (visit s m).1) s

/-- The visit that also notes which elements it is called with. -/
def noting (visit : σ → Node → σ × Option β) : σ × List Node → Node → (σ × List Node) × Option β :=
  fun (s, noted) m => (((visit s m).1, noted ++ [m]), (visit s m).2)

/-- What the visit of the element at a place breaks with, if all before it were visited. -/
def breakAt (visit : σ → Node → σ × Option β) (s : σ) (ns : List Node) (i : Nat) : Option β :=
  ns[i]?.bind fun m => (visit (stateAfter visit s (ns.take i)) m).2

/-- Which elements are visited, and what the visits break with: all of them if none breaks, or else those up
to the first one that does. -/
inductive Breaks (visit : σ → Node → σ × Option β) (s : σ) (ns : List Node) :
    List Node → Option β → Prop
  | never (h : ∀ i < ns.length, breakAt visit s ns i = none) : Breaks visit s ns ns none
  | first {i : Nat} {b : β} (hi : i < ns.length) (hbefore : ∀ j < i, breakAt visit s ns j = none)
    (hb : breakAt visit s ns i = some b) : Breaks visit s ns (ns.take (i + 1)) (some b)

theorem breakAt_succ {m : Node} {ns : List Node} (i : Nat) : breakAt visit s (m :: ns) (i + 1) =
    breakAt visit (visit s m).1 ns i := by
  rw [breakAt, breakAt, List.getElem?_cons_succ, List.take_succ_cons, stateAfter, List.foldl_cons]
  rfl

/-- An element whose visit does not break goes before. -/
theorem Breaks.cons {m : Node} {ns : List Node} (hm : (visit s m).2 = none)
    (h : Breaks visit (visit s m).1 ns called b) : Breaks visit s (m :: ns) (m :: called) b := by
  have hfirst : breakAt visit s (m :: ns) 0 = none := hm
  cases h with
  | never h =>
    refine .never fun i hi => ?_
    cases i with
    | zero => exact hfirst
    | succ i => exact (breakAt_succ i).trans (h i (Nat.lt_of_succ_lt_succ hi))
  | @first i b hi hbefore hb =>
    refine .first (i := i + 1) (Nat.succ_lt_succ hi) (fun j hj => ?_) ((breakAt_succ i).trans hb)
    cases j with
    | zero => exact hfirst
    | succ j => exact (breakAt_succ j).trans (hbefore j (Nat.lt_of_succ_lt_succ hj))

/-- The elements that are visited are those that a visit with notes is called with. -/
theorem visitUntilBreak_breaks (visit : σ → Node → σ × Option β) (s : σ) (ns : List Node) :
    ∃ called b, Breaks visit s ns called b ∧
      visitUntilBreak visit s ns = (stateAfter visit s called, b) ∧
        ∀ noted, visitUntilBreak (noting visit) (s, noted) ns =
          ((stateAfter visit s called, noted ++ called), b) := by
  induction ns generalizing s with
  | nil => exact ⟨[], none, .never nofun, rfl, fun noted => by rw [List.append_nil]; rfl⟩
  | cons m ns ih =>
    have hstate (called : List Node) : stateAfter visit s (m :: called) =
        stateAfter visit (visit s m).1 called := rfl
    cases hm : (visit s m).2 with
    | none =>
      obtain ⟨called, b, hbreaks, hrun, hnotes⟩ := ih (visit s m).1
      have hvisit : visit s m = ((visit s m).1, none) := Prod.ext rfl hm
      refine ⟨m :: called, b, .cons hm hbreaks, ?_, fun noted => ?_⟩
      · rw [visitUntilBreak, hvisit, hstate]
        exact hrun
      · have hnoting : noting visit (s, noted) m = (((visit s m).1, noted ++ [m]), none) :=
          congrArg (Prod.mk _) hm
        rw [visitUntilBreak, hnoting, hstate]
        exact (hnotes (noted ++ [m])).trans (by rw [List.append_assoc, List.singleton_append])
    | some b =>
      have hvisit : visit s m = ((visit s m).1, some b) := Prod.ext rfl hm
      refine ⟨[m], some b, .first (i := 0) (Nat.zero_lt_succ _) nofun hm, ?_, fun noted => ?_⟩
      · rw [visitUntilBreak, hvisit]
        rfl
      · have hnoting : noting visit (s, noted) m = (((visit s m).1, noted ++ [m]), some b) :=
          congrArg (Prod.mk _) hm
        rw [visitUntilBreak, hnoting]
        rfl

end

/-- The visitor of a walk that began in `w`, at some time of the walk. -/
structure HasVisitor (n : Node) (w w' : World) : Prop where
  callable : w'.heap.callable? (.object (visitorRef w)) =
    some (visitorRef w, .host ⟨w.hostFunctions.size⟩)
  function : w'.hostFunctions[w.hostFunctions.size]? = some ⟨n.context, .collect w.collections.size⟩
  /-- Nothing else goes into its collection. -/
  alone : ∀ i f, w'.hostFunctions[i]? = some f → f.behaviour = .collect w.collections.size →
    i = w.hostFunctions.size
  /-- However it is called, it answers with undefined, and its call goes on record. -/
  answers : ∀ fuel room rest receiver arguments,
    (Engine.ofFuel (fuel + 1) room).run rest (.host ⟨w.hostFunctions.size⟩) receiver arguments w' =
      (.ok .undefined, (w'.mark.visit w.collections.size arguments).mark)
  /-- A visit that stops at the first truthy answer goes on to its end. -/
  goesOn : ∀ next : Nat → Eval (Option Value), (∀ i, (next i).Neutral [.context n.context]) →
    ∀ limit i fuel room,
      Eval.visitUntil next (.object (visitorRef w)) limit i (Engine.ofFuel fuel room) w' =
        Eval.visitAll next (.object (visitorRef w)) limit i (Engine.ofFuel fuel room) w'

theorem Walking.hasVisitor {heap : Heap} (hw : Session.Attains heap F w)
    (hr : (w.context n.context).references ≠ 0) (h : n.Walking F w w') : n.HasVisitor w w' where
  callable := h.visitor_callable
  function := h.visitor_function
  alone _ _ := h.visitor_alone hw
  answers := h.visitor_run hw hr
  goesOn _ hnext limit i fuel room := h.visitUntil_eq hw hr hnext fuel room limit i

/-- The walker is called with the object of the node and the visitor. -/
theorem walk_eq {o : ObjectRef} (hr : (w.context n.context).references ≠ 0)
    (ho : (w.context n.context).custodian.get n.handle = .ok (.object o)) (walker : Value)
    (visitor : ObjectRef) (E : Engine) : n.walk walker visitor E (n.walkStart w) =
      n.context.callFunction walker [.object o, .object visitor] E (n.walkStart w) := by
  have hheld : (n.walkStart w).context n.context =
      { w.context n.context with references := (w.context n.context).references + 1 } :=
    World.holdContext_context hr
  have hvalue : n.foreign n.context E (n.walkStart w) = (.ok (.object o), n.walkStart w) := by
    rw [Proxy.foreign, ContextId.value, world_bind, hheld, ho]
    rfl
  exact bind_of_ok hvalue

end Node

namespace Session

variable {heap : Heap} {F : Multiset Reference} {w : World} {n : Node} {walker : Value}

/-- While a walker runs, whatever it does, the visitor answers every call with undefined and notes the first
argument. When it has returned, these arguments are resolved in order, up to the first one that is no object
or has no key, and what was resolved is cached. If it throws, nothing is resolved. A function that is called
with the children is called with all of them up to the first one that it breaks at, and with none if they
fail. -/
theorem children_follow_visits (hw : Attains heap F w) (hwalker : n.context.HasWalker walker w)
    (fuel room : Nat) :
    (∀ w', n.Walking F w w' → n.HasVisitor w w') ∧
    n.Walking F w (n.walk walker (Node.visitorRef w) (Engine.ofFuel fuel room) (n.walkStart w)).2 ∧
    (∀ o, (w.context n.context).custodian.get n.handle = .ok (.object o) →
      n.walk walker (Node.visitorRef w) (Engine.ofFuel fuel room) (n.walkStart w) =
        n.context.callFunction walker [.object o, .object (Node.visitorRef w)] (Engine.ofFuel fuel room)
          (n.walkStart w)) ∧
    n.Walked walker (Engine.ofFuel fuel room) w (n.children (Engine.ofFuel fuel room) w) ∧
    ∀ (σ β : Type) (visit : σ → Node → σ × Option β) (s : σ),
      (∀ stop w', n.children (Engine.ofFuel fuel room) w = (.error stop, w') →
        n.forEachChild visit s (Engine.ofFuel fuel room) w = (.error stop, w')) ∧
      ∀ ns w', n.children (Engine.ofFuel fuel room) w = (.ok ns, w') →
        ∃ called b, Node.Breaks visit s ns called b ∧
          n.forEachChild visit s (Engine.ofFuel fuel room) w =
            (.ok (Node.stateAfter visit s called, b), w') ∧
          n.forEachChild (Node.noting visit) (s, []) (Engine.ofFuel fuel room) w =
            (.ok ((Node.stateAfter visit s called, called), b), w') := by
  have hr := hwalker.present hw.sound
  refine ⟨fun w' h => h.hasVisitor hw hr, Node.walk_walking n F w walker fuel room,
    fun o ho => Node.walk_eq hr ho walker _ _, Node.children_walked hw hwalker fuel room,
    fun σ β visit s => ⟨fun stop w' hstop => bind_of_error hstop, fun ns w' hok => ?_⟩⟩
  obtain ⟨called, b, hbreaks, hrun, hnotes⟩ := Node.visitUntilBreak_breaks visit s ns
  refine ⟨called, b, hbreaks, (bind_of_ok hok).trans ?_, (bind_of_ok hok).trans ?_⟩
  · rw [hrun]
    rfl
  · rw [hnotes]
    rfl

/-- A walker that calls its visitor without arguments first, and then with each of the kids of a node. -/
def walkHeap : Heap :=
  let reference (name : String) (i : Nat) : PropertyDescription :=
    ⟨.ofString name, .value (.object ⟨i⟩), true⟩
  let node (id : Int32) (kids : Nat) : ObjectDescription :=
    ⟨"node", .plain, [⟨.ofString "id", .value (.int id), true⟩, reference "kids" kids]⟩
  .ofDescriptions
    [⟨"program", .plain, []⟩, ⟨"checker", .plain, []⟩,
      ⟨"createScanner", .function (.value .undefined), []⟩,
      ⟨"getNodeId", .function (.get (.argument 0) (.value (.ofString "id"))), []⟩,
      ⟨"syntaxKinds", .plain, []⟩,
      ⟨"parse", .plain, [reference "program" 0, reference "checker" 1, reference "createScanner" 2,
        reference "getNodeId" 3, reference "syntaxKinds" 4, reference "forEachChild" 6]⟩,
      ⟨"forEachChild", .function (.sequence [.call (.argument 1) (.value .undefined) [],
        .forEach (.get (.argument 0) (.value (.ofString "kids"))) (.argument 1)]), []⟩,
      node 1 8, ⟨"kids", .array [.object ⟨9⟩, .object ⟨10⟩, .object ⟨9⟩] none, []⟩, node 2 11, node 3 11,
      ⟨"none", .array [] none, []⟩] #[]

/-- The world after a context was opened and the first node resolved. -/
def walkWorld : World := last 3 walkHeap []
  [.mk (.open (.value (.object ⟨5⟩)) {}) "cx" (some "cx"),
    .mk (.resolve .node (.value (.object ⟨7⟩))) "cx" (some "node")]

def walkNode : Node := ⟨⟨0⟩, 1, ⟨6⟩⟩

def walkKids : List Node := [⟨⟨0⟩, 2, ⟨7⟩⟩, ⟨⟨0⟩, 3, ⟨8⟩⟩, ⟨⟨0⟩, 2, ⟨7⟩⟩]

/-- Breaks at a node with the key 3. -/
def untilThree (_ : Unit) (n : Node) : Unit × Option Int64 :=
  ((), if n.key = 3 then some n.key else none)

/-- The first child comes twice and has one proxy; a function that breaks at the second child is not called
with what comes after it. -/
theorem children_follow_visits_sample :
    walkNode.context.HasWalker (.object ⟨6⟩) walkWorld ∧
    ∃ w', walkNode.children (Engine.ofFuel 3 stackSize) walkWorld = (.ok walkKids, w') ∧
      walkNode.Walked (.object ⟨6⟩) (Engine.ofFuel 3 stackSize) walkWorld (.ok walkKids, w') ∧
      Node.Breaks untilThree () walkKids (walkKids.take 2) (some 3) := by
  have hfound : (walkWorld.context walkNode.context).forEachChild = some ⟨5⟩ ∧
      ((walkWorld.context walkNode.context).custodian.get ⟨5⟩).toOption = some (.object ⟨6⟩) ∧
      walkWorld.heap.isFunction (.object ⟨6⟩) = true := by
    decide +kernel
  have hkids : (walkNode.children (Engine.ofFuel 3 stackSize) walkWorld).1.toOption = some walkKids := by
    decide +kernel
  have hcalled : (walkNode.forEachChild (Node.noting untilThree) ((), []) (Engine.ofFuel 3 stackSize)
      walkWorld).1.toOption = some (((), walkKids.take 2), some 3) := by
    decide +kernel
  obtain ⟨hhandle, hget, hfunction⟩ := hfound
  have hwalker : walkNode.context.HasWalker (.object ⟨6⟩) walkWorld := by
    refine ⟨⟨⟨5⟩, hhandle, ?_⟩, hfunction⟩
    cases hv : (walkWorld.context walkNode.context).custodian.get ⟨5⟩ with
    | error e =>
      rw [hv] at hget
      cases hget
    | ok v =>
      rw [hv] at hget
      cases hget
      rfl
  have hattains : Attains walkHeap 0 walkWorld := last_attains
  obtain ⟨-, -, -, hwalked, hvisits⟩ := children_follow_visits hattains hwalker 3 stackSize
  have hrun := run_of_toOption hkids
  obtain ⟨called, b, hbreaks, -, hnotes⟩ := (hvisits Unit Int64 untilThree ()).2 _ _ hrun
  rw [hnotes] at hcalled
  cases hcalled
  rw [hrun] at hwalked
  exact ⟨hwalker, _, hrun, hwalked, hbreaks⟩

end Session

end ProxySession
