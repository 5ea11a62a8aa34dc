import ProxySession.Proofs.NumberReadings
import ProxySession.Proofs.ScannerCalls
import ProxySession.Proofs.SourceFiles

/-!
# Ways that come back

The walk from a node to its parent, to the parent of that, and so on has no other bound than its way: it ends
unless it comes back to a node that it has passed, and then it goes round for good. Where parents stay what
they are and nodes keep their keys, there is nothing else that it can do, because the nodes on a way that has
not come back are all different, and each of them was found at the parent of one of finitely many objects.
-/

namespace ProxySession

open Effect

variable {α β ε : Type} {c : ContextId} {f : Value} {fuel room m : Nat} {w w' w₀ w₁ w₂ v v' : World}
  {E : Engine} {ss : List Sighting} {s : Sighting} {o : ObjectRef} {n l p q : Node} {ps qs : List Node}
  {O : Finset ObjectRef} {up : ObjectRef → Value} {number : ObjectRef → Except SessionError Int64}

theorem Effect.bind_stops {x : Effect ε α} {g : α → Effect ε β} {stop : Stop ε}
    (h : (x E w).1 = .error stop) : ((x >>= g) E w).1 = .error stop := by
  rw [bind_eq]
  rcases hrun : x E w with ⟨result, w₁⟩
  rw [hrun] at h
  cases h
  rfl

/-- A run that came to an end, with a result or a failure. -/
def Effect.Returned (r : Except (Stop ε) α) : Prop := (∃ a, r = .ok a) ∨ ∃ e, r = .error (.failed e)

namespace Heap

/-- What an object has under a name, if no accessor has to run for it. -/
def datum? (h : Heap) (o : ObjectRef) (name : String) : Option Value :=
  match h.lookup o (.ofString name) with
  | none => some .undefined
  | some (.data x) | some (.constant x) => some x
  | some (.accessor _ _) => none

end Heap

theorem getProperty_of_datum {name : String} {x : Value} (h : w.heap.datum? o name = some x) (E : Engine) :
    Eval.getProperty o (.ofString name) E w = (.ok x, w) := by
  cases hfound : w.heap.lookup o (.ofString name) with
  | none =>
    rw [Heap.datum?, hfound] at h
    obtain rfl := Option.some_inj.1 h
    exact ContextId.getProperty_none hfound
  | some content =>
    rw [Heap.datum?, hfound] at h
    cases content with
    | data y =>
      obtain rfl := Option.some_inj.1 h
      exact ContextId.getProperty_data hfound
    | constant y =>
      obtain rfl := Option.some_inj.1 h
      have hprovided : w.heap.provided (.object o) (.ofString name) = some (.constant y) := hfound
      rw [Eval.getProperty, Eval.read, world_bind, hprovided]
      rfl
    | accessor getter setter => cases h

namespace ContextId

theorem property_of_datum {name : String} {x : Value} (h : w.heap.datum? o name = some x) (E : Engine) :
    c.property o name E w = (.ok x, w) :=
  reading_of_ok (getProperty_of_datum h E)

theorem methodSight_of_datum {name : String} {x : Value} (h : w.heap.datum? o name = some x)
    (hx : w.heap.isFunction x = false) (E : Engine) : c.methodSight o name E w = (.ok false, w) := by
  rw [methodSight, bind_of_ok (property_of_datum h E), world_bind, hx]
  rfl

/-! ## A side that holds still -/

/-- The worlds that numbering some nodes leads to. -/
inductive Numbered (c : ContextId) (E : Engine) (O : Finset ObjectRef) (w : World) : World → Prop
  | start : Numbered c E O w w
  | next {w₁ : World} {o : ObjectRef} : Numbered c E O w w₁ → o ∈ O →
      Numbered c E O w (c.nodeKey o E w₁).2

/-- Some objects, the parents of which are among them, have data for their parents and their kinds. However
often they are numbered, the parents stay what they are and the keys are the same, and no host function runs
for that. -/
structure Steady (c : ContextId) (E : Engine) (O : Finset ObjectRef) (up : ObjectRef → Value)
    (number : ObjectRef → Except SessionError Int64) (w : World) : Prop where
  parent : ∀ {w₁}, c.Numbered E O w w₁ → ∀ o ∈ O, w₁.heap.datum? o "parent" = some (up o)
  kind : ∀ {w₁}, c.Numbered E O w w₁ → ∀ o ∈ O, ∃ x, w₁.heap.datum? o "kind" = some x
  key : ∀ {w₁}, c.Numbered E O w w₁ → ∀ o ∈ O, (c.nodeKey o E w₁).1 = (number o).mapError .failed
  calls : ∀ {w₁}, c.Numbered E O w w₁ → w₁.hostCalls = w.hostCalls
  closed : ∀ o ∈ O, ∀ p, up o = .object p → p ∈ O

/-- What is found at the parent of an object on such a side. -/
def upward (up : ObjectRef → Value) (number : ObjectRef → Except SessionError Int64) (o : ObjectRef) :
    Option Sighting :=
  match up o with
  | .object p =>
    match number p with
    | .ok key => some ⟨p, key⟩
    | .error _ => none
  | _ => none

/-- A look at a parent finds that, or ends otherwise. -/
inductive ParentSighted : Option Sighting → Except (Stop SessionError) (Option Sighting) → Prop
  | found {s : Sighting} : ParentSighted (some s) (.ok (some s))
  | none : ParentSighted none (.ok none)
  | failed {e : SessionError} : ParentSighted none (.error (.failed e))

theorem Steady.sight (h : c.Steady E O up number w) (hw : c.Numbered E O w w₁) (ho : o ∈ O) :
    ParentSighted (upward up number o) (c.parentSight o E w₁).1 ∧ c.Numbered E O w (c.parentSight o E w₁).2 := by
  rw [parentSight, bind_of_ok (property_of_datum (h.parent hw o ho) E), upward]
  cases hup : up o with
  | object p =>
    have hkey := h.key hw p (h.closed o ho p hup)
    have hnext := hw.next (h.closed o ho p hup)
    change ParentSighted _ ((c.nodeKey p >>= fun key => pure (some (⟨p, key⟩ : Sighting))) E w₁).1 ∧
      c.Numbered E O w ((c.nodeKey p >>= fun key => pure (some (⟨p, key⟩ : Sighting))) E w₁).2
    rcases hrun : c.nodeKey p E w₁ with ⟨stop | key, w₂⟩ <;> rw [hrun] at hkey hnext <;>
      cases hnumber : number p <;> rw [hnumber] at hkey <;> cases hkey
    · rw [bind_of_error hrun]
      simp only [hnumber]
      exact ⟨.failed, hnext⟩
    · rw [bind_of_ok hrun]
      simp only [hnumber]
      exact ⟨.found, hnext⟩
  | undefined => exact ⟨.none, hw⟩
  | null => exact ⟨.none, hw⟩
  | _ => exact ⟨.failed, hw⟩

theorem toSyntaxKind_returned (x : Value) (E : Engine) (w : World) :
    ∃ r, (Conversion.toSyntaxKind c).required x E w = (r, w) ∧ Returned r := by
  unfold Conversion.required
  split
  · exact ⟨_, rfl, .inr ⟨_, rfl⟩⟩
  · unfold Conversion.toSyntaxKind Conversion.toCode Conversion.toInt32
    rw [world_bind, bind_eq, Conversion.ofOption_run]
    cases x.exactInt32? with
    | none => exact ⟨_, rfl, .inr ⟨_, rfl⟩⟩
    | some code =>
      dsimp only
      cases (w.context c).kinds.kind? code with
      | none => exact ⟨_, rfl, .inr ⟨_, rfl⟩⟩
      | some kind => exact ⟨_, rfl, .inl ⟨_, rfl⟩⟩

/-- A node is judged by a kind that is there or not. -/
theorem Steady.view_returned (h : c.Steady (Engine.ofFuel fuel room) O up number w)
    (hw : c.Numbered (Engine.ofFuel fuel room) O w w₁) (hb : c.Beside w ss m w₁ v) (ho : o ∈ O)
    (hp : Node.For c ((w.context c).seesAll .node ss) ⟨o, p.key⟩ p) :
    Returned (p.sourceFileView (Engine.ofFuel fuel room) v).1 := by
  obtain ⟨x, hx⟩ := h.kind hw o ho
  obtain ⟨r, hsight, hreturned⟩ := toSyntaxKind_returned (c := c) x (Engine.ofFuel fuel room) w₁
  have hlook : c.kindSight o (Engine.ofFuel fuel room) w₁ = (r, w₁) := by
    rw [kindSight, bind_of_ok (property_of_datum hx _), hsight]
  have hread {v : World} (hb : c.Beside w ss m w₁ v) : ∃ v', c.Beside w ss m w₁ v' ∧
      p.syntaxKind (Engine.ofFuel fuel room) v = (r.mapError (Stop.map (.located "Node.kind")), v') := by
    obtain ⟨hresult, hb'⟩ := hb.syntaxKind hp fuel room (by rw [hlook])
    rw [hlook] at hresult hb'
    exact ⟨_, hb', Prod.ext hresult rfl⟩
  obtain ⟨v₁, hb₁, hfirst⟩ := hread hb
  obtain ⟨v₂, hb₂, hsecond⟩ := hread hb₁
  rw [Node.sourceFileView_eq]
  obtain ⟨k, rfl⟩ | ⟨e, rfl⟩ := hreturned
  · rw [bind_of_ok hfirst]
    split
    · exact .inl ⟨_, rfl⟩
    · rw [bind_of_ok hsecond]
      exact .inr ⟨_, rfl⟩
  · rw [bind_of_error hfirst]
    exact .inr ⟨_, rfl⟩

/-- The accessor of the parent does what the look does, and takes note. -/
theorem Steady.parent_run (h : c.Steady (Engine.ofFuel fuel room) O up number w) (hf : c.NumbersBy f w)
    (hw : c.Numbered (Engine.ofFuel fuel room) O w w₁) (hb : c.Beside w ss m w₁ v) (ho : o ∈ O)
    (hp : Node.For c ((w.context c).seesAll .node ss) ⟨o, p.key⟩ p) :
    (upward up number o = none ∧ ∃ r w₂ v₂, p.parent (Engine.ofFuel fuel room) v = (r, v₂) ∧
      (r = .ok none ∨ ∃ e, r = .error (.failed e)) ∧
        c.Numbered (Engine.ofFuel fuel room) O w w₂ ∧ c.Beside w ss m w₂ v₂) ∨
    ∃ s handle w₂ v₂, upward up number o = some s ∧
      p.parent (Engine.ofFuel fuel room) v = (.ok (some ⟨c, s.key, handle⟩), v₂) ∧
        (((w.context c).seesAll .node (ss ++ [s])).identities .node).get? s.key = some handle ∧
          c.Numbered (Engine.ofFuel fuel room) O w w₂ ∧ c.Beside w (ss ++ [s]) m w₂ v₂ := by
  obtain ⟨hsights, hnext⟩ := h.sight hw ho
  have hstep := hb.parent hf hp fuel room (by rw [h.calls hnext, h.calls hw])
  generalize c.parentSight o (Engine.ofFuel fuel room) w₁ = look at hsights hnext hstep
  generalize p.parent (Engine.ofFuel fuel room) v = run at hstep ⊢
  generalize upward up number o = found at hsights ⊢
  cases hstep with
  | top hb₂ =>
    cases hsights with
    | none => exact .inl ⟨rfl, _, _, _, rfl, .inl rfl, hnext, hb₂⟩
  | parent hb₂ hget =>
    cases hsights with
    | found => exact .inr ⟨_, _, _, _, rfl, rfl, hget, hnext, hb₂⟩
  | stopped hb₂ =>
    cases hsights with
    | failed => exact .inl ⟨rfl, _, _, _, rfl, .inr ⟨_, rfl⟩, hnext, hb₂⟩

end ContextId

/-! ## Going round -/

/-- No note is taken of a node that is known. -/
theorem ContextId.Beside.known {handle : HandleId} (hb : c.Beside w (ss ++ [s]) m w₁ v)
    (hget : (((w.context c).seesAll .node ss).identities .node).get? s.key = some handle) :
    c.Beside w ss m w₁ v where
  outlook := hb.outlook
  looked := hb.looked
  took := by
    obtain ⟨failures, tag, hcontext⟩ := hb.took
    rw [Context.annotated, Context.seesAll_concat, Context.sees_of_some hget] at hcontext
    exact ⟨failures, tag, hcontext⟩
  alive := hb.alive

namespace Node

/-- The parent of a node is found under a key of some nodes. -/
def Onward (c : ContextId) (O : Finset ObjectRef) (up : ObjectRef → Value)
    (number : ObjectRef → Except SessionError Int64) (cx : Context) (qs : List Node) (q : Node) : Prop :=
  ∃ o ∈ O, For c cx ⟨o, q.key⟩ q ∧ ∃ s, ContextId.upward up number o = some s ∧ s.key ∈ qs.map Proxy.key

theorem Onward.later {cx : Context} (h : Onward c O up number (cx.seesAll .node ss) qs q) (hr : cx.Ready)
    (ss' : List Sighting) {qs' : List Node} (hsub : qs ⊆ qs') :
    Onward c O up number (cx.seesAll .node (ss ++ ss')) qs' q := by
  obtain ⟨o, ho, hfor, s, hs, hkey⟩ := h
  exact ⟨o, ho, hfor.later hr ss', s, hs, List.map_subset _ hsub hkey⟩

/-- A parent under the key of a node that is known is that node. -/
theorem For.eq_of_key {cx : Context} (h : For c (cx.seesAll .node ss) ⟨o, q.key⟩ q) (hkey : q.key = s.key)
    {handle : HandleId} (hget : ((cx.seesAll .node (ss ++ [s])).identities .node).get? s.key = some handle) :
    ((cx.seesAll .node ss).identities .node).get? s.key = some handle ∧ ⟨c, s.key, handle⟩ = q := by
  have hknown : ((cx.seesAll .node ss).identities .node).get? s.key = some q.handle := hkey ▸ h.entry
  rw [Context.seesAll_concat, Context.sees_of_some hknown] at hget
  rw [hknown] at hget
  obtain rfl := Option.some_inj.1 hget
  exact ⟨hknown, by rw [← hkey, ← h.context]⟩

/-- Among nodes each of which has one of them for a parent, the walk never ends. -/
theorem lastParent_circle (h : c.Steady (Engine.ofFuel fuel room) O up number w) (hf : c.NumbersBy f w)
    (hqs : ∀ q ∈ qs, Onward c O up number ((w.context c).seesAll .node ss) qs q) (k : Nat) (hq : q ∈ qs)
    (hw : c.Numbered (Engine.ofFuel fuel room) O w w₁) (hb : c.Beside w ss m w₁ v) :
    (q.lastParent k (Engine.ofFuel fuel room) v).1 = .error .exhausted := by
  -- Every parent is one of the nodes `qs` again, so the induction is on the fuel, over all of them.
  induction k generalizing q w₁ v with
  | zero => rfl
  | succ k ih =>
    obtain ⟨o, ho, hfor, s, hs, hkey⟩ := hqs q hq
    obtain ⟨hnone, -⟩ | ⟨s', handle, w₂, v₂, hs', hrun, hget, hw₂, hb₂⟩ := h.parent_run hf hw hb ho hfor
    · rw [hs] at hnone
      cases hnone
    · rw [hs] at hs'
      cases hs'
      obtain ⟨q', hq', hsame⟩ := List.mem_map.1 hkey
      obtain ⟨_, _, hfor', _⟩ := hqs q' hq'
      obtain ⟨hknown, rfl⟩ := hfor'.eq_of_key hsame hget
      rw [lastParent, bind_of_ok hrun]
      exact ih hq' hw₂ (hb₂.known hknown)

/-! ## On the way -/

/-- The nodes that the accessor of the parent gives from a node on, the last of them, and the world then. -/
inductive Climbs (E : Engine) (n : Node) (w : World) : List Node → Node → World → Prop
  | start : Climbs E n w [] n w
  | step {ps : List Node} {l p : Node} {v v' : World} : Climbs E n w ps l v →
      l.parent E v = (.ok (some p), v') → Climbs E n w (ps ++ [p]) p v'

/-- Each of these nodes takes the walk one step. -/
theorem Climbs.lastParent (h : Climbs E n w ps l v) (k : Nat) :
    n.lastParent (k + ps.length) E w = l.lastParent k E v := by
  induction h generalizing k with
  | start => rfl
  | @step ps l p v v' _ hrun ih =>
    have hlength : k + (ps ++ [p]).length = (k + 1) + ps.length := by
      rw [List.length_append, List.length_singleton]
      omega
    rw [hlength, ih, Node.lastParent, bind_of_ok hrun]

theorem Climbs.exhausted (h : Climbs E n w ps l v) {k : Nat} (hk : k ≤ ps.length) :
    (n.lastParent k E w).1 = .error .exhausted := by
  induction h with
  | start =>
    obtain rfl : k = 0 := Nat.le_zero.1 hk
    rfl
  | @step ps l p v v' hclimbs hrun ih =>
    rcases Nat.lt_or_ge ps.length k with hlt | hle
    · rw [List.length_append, List.length_singleton] at hk
      obtain rfl : k = 1 + ps.length := by omega
      rw [hclimbs.lastParent, Node.lastParent, bind_of_ok hrun]
      rfl
    · exact ih hle

/-- The walk from a node ends after some further nodes: the last of them has no parent, or none that can be
read. It reads the parent of each node once, and there is an answer then. -/
structure EndsAfter (E : Engine) (w : World) (n : Node) (ps : List Node) : Prop where
  climbs : ∃ l v, n.Climbs E w ps l v ∧
    ((l.parent E v).1 = .ok none ∨ ∃ e, (l.parent E v).1 = .error (.failed e))
  reads : ∀ k, (n.lastParent k E w).1 = .error .exhausted ↔ k ≤ ps.length
  answers : ∀ k, ps.length < k → Returned ((n.lastParent k >>= sourceFileView) E w).1

theorem EndsAfter.of_climbs (hclimbs : Climbs E n w ps l v) {r : Except (Stop SessionError) (Option Node)}
    (hrun : l.parent E v = (r, v')) (hr : r = .ok none ∨ ∃ e, r = .error (.failed e))
    (hview : Returned (l.sourceFileView E v').1) : n.EndsAfter E w ps := by
  have hlast {k : Nat} (hk : ps.length < k) :
      n.lastParent k E w = (match r with | .ok _ => .ok l | .error stop => .error stop, v') := by
    obtain ⟨j, rfl⟩ : ∃ j, k = (j + 1) + ps.length := ⟨k - ps.length - 1, by omega⟩
    rw [hclimbs.lastParent, Node.lastParent]
    obtain rfl | ⟨e, rfl⟩ := hr
    · rw [bind_of_ok hrun]
      rfl
    · rw [bind_of_error hrun]
  refine ⟨⟨l, v, hclimbs, by rwa [hrun]⟩, fun k => ⟨fun hk => ?_, hclimbs.exhausted⟩, fun k hk => ?_⟩
  · by_contra hlt
    rw [hlast (Nat.lt_of_not_le hlt)] at hk
    obtain rfl | ⟨e, rfl⟩ := hr <;> cases hk
  · obtain rfl | ⟨e, rfl⟩ := hr
    · rw [bind_of_ok (hlast hk)]
      exact hview
    · rw [bind_of_error (hlast hk)]
      exact .inr ⟨e, rfl⟩

/-- After some further nodes, the walk from a node comes back to one of those that it has passed, and no number
of steps is enough for it. -/
structure ComesBack (E : Engine) (w : World) (n : Node) (ps : List Node) : Prop where
  climbs : ∃ l v p, n.Climbs E w ps l v ∧ (l.parent E v).1 = .ok (some p) ∧ p ∈ n :: ps
  reads : ∀ k, (n.lastParent k E w).1 = .error .exhausted

end Node

/-- The nodes that a context has cached are for some objects. -/
def Context.Within (cx : Context) (O : Finset ObjectRef) : Prop :=
  ∀ key x, cx.cached .node key = some (.ok x) → ∃ o ∈ O, x = .object o

theorem Context.Within.node_for {cx : Context} (h : cx.Within O) (hr : cx.Ready) (hholds : cx.Holds)
    (hsize : cx.custodian.slots.size + ss.length ≤ 2 ^ 32) (hseen : ∀ s ∈ ss, s.object ∈ O) {key : Int64}
    {handle : HandleId} (hget : ((cx.seesAll .node ss).identities .node).get? key = some handle) :
    ∃ o ∈ O, Node.For c (cx.seesAll .node ss) ⟨o, key⟩ ⟨c, key, handle⟩ := by
  have hall := cached_seesAll hr hholds hsize .node .node key
  rw [Context.cached, hget, Option.map_some, if_pos rfl] at hall
  cases hbefore : cx.cached .node key with
  | some r =>
    rw [hbefore, Option.some_or, Option.some_inj] at hall
    obtain ⟨x, rfl⟩ : ∃ x, r = .ok x := by
      obtain ⟨handle', hentry, hx⟩ := Option.map_eq_some_iff.1 hbefore
      obtain ⟨x, hslot⟩ := hholds .node key handle' hentry
      exact ⟨x, hx ▸ Custodian.get_of_holds hr.isOpen hslot⟩
    obtain ⟨o, ho, rfl⟩ := h key x hbefore
    exact ⟨o, ho, rfl, rfl, hget, hall⟩
  | none =>
    rw [hbefore, Option.none_or] at hall
    obtain ⟨s, hs, hobject⟩ := Option.map_eq_some_iff.1 hall.symm
    exact ⟨s.object, hseen s (List.mem_of_find?_eq_some hs), rfl, rfl, hget, hobject.symm⟩

/-- There are no more keys on a way than objects to find them from. -/
theorem length_le_of_found {keys : List Int64} (hdistinct : keys.Nodup)
    (hfound : ∀ key ∈ keys, ∃ o ∈ O, (ContextId.upward up number o).map Sighting.key = some key) :
    keys.length ≤ O.card := by
  let reached := O.image fun o => (ContextId.upward up number o).map Sighting.key
  have hsub : (keys.map some).toFinset ⊆ reached := by
    intro found hmem
    obtain ⟨key, hkey, rfl⟩ := List.mem_map.1 (List.mem_toFinset.1 hmem)
    obtain ⟨o, ho, hsame⟩ := hfound key hkey
    exact Finset.mem_image.2 ⟨o, ho, hsame⟩
  have hcard := (Finset.card_le_card hsub).trans Finset.card_image_le
  rwa [List.toFinset_card_of_nodup (hdistinct.map (Option.some_injective _)), List.length_map] at hcard

namespace ContextId

/-- What a walk has behind it that has not come back: nodes of different keys, each of which was found at the
parent of an object, and each of which but the last has one of them for a parent. -/
structure Passing (c : ContextId) (w : World) (E : Engine) (O : Finset ObjectRef) (up : ObjectRef → Value)
    (number : ObjectRef → Except SessionError Int64) (n : Node) (ps : List Node) (l : Node)
    (ss : List Sighting) (m : Nat) (w₁ v : World) : Prop where
  numbered : c.Numbered E O w w₁
  beside : c.Beside w ss m w₁ v
  length : ss.length = ps.length
  seen : ∀ s ∈ ss, s.object ∈ O
  last : l ∈ n :: ps
  distinct : ((n :: ps).map Proxy.key).Nodup
  found : ∀ q ∈ ps, ∃ o ∈ O, (upward up number o).map Sighting.key = some q.key
  nodes : ∀ q ∈ n :: ps, ∃ o ∈ O, Node.For c ((w.context c).seesAll .node ss) ⟨o, q.key⟩ q
  onward : ∀ q ∈ n :: ps, q ≠ l →
    Node.Onward c O up number ((w.context c).seesAll .node ss) (n :: ps) q

namespace Passing

theorem start (hb : c.Beside w [] m w v) (ho : o ∈ O) (hn : Node.For c (w.context c) ⟨o, n.key⟩ n) :
    c.Passing w E O up number n [] n [] m w v where
  numbered := .start
  beside := hb
  length := rfl
  seen := nofun
  last := List.mem_singleton_self n
  distinct := List.nodup_singleton n.key
  found := nofun
  nodes q hq := by
    obtain rfl := List.mem_singleton.1 hq
    exact ⟨o, ho, hn⟩
  onward q hq hne := absurd (List.mem_singleton.1 hq) hne

variable (h : c.Passing w E O up number n ps l ss m w₁ v)

include h

theorem length_le : ps.length ≤ O.card := by
  have hfound : ∀ key ∈ ps.map Proxy.key, ∃ o ∈ O, (upward up number o).map Sighting.key = some key := by
    intro key hkey
    obtain ⟨q, hq, rfl⟩ := List.mem_map.1 hkey
    exact h.found q hq
  exact (List.length_map _).symm.trans_le (length_le_of_found (List.nodup_cons.1 h.distinct).2 hfound)

/-- A parent under a new key is one node more. -/
theorem step (hr : (w.context c).Ready) (hholds : (w.context c).Holds) (hwithin : (w.context c).Within O)
    (hsize : (w.context c).custodian.slots.size + O.card < 2 ^ 32)
    (hclosed : ∀ o ∈ O, ∀ p, up o = .object p → p ∈ O) (ho : o ∈ O)
    (hfor : Node.For c ((w.context c).seesAll .node ss) ⟨o, l.key⟩ l)
    (hs : upward up number o = some s) (hnew : s.key ∉ (n :: ps).map Proxy.key) {handle : HandleId}
    (hget : (((w.context c).seesAll .node (ss ++ [s])).identities .node).get? s.key = some handle)
    (hw : c.Numbered E O w w₂) (hb : c.Beside w (ss ++ [s]) m w₂ v') :
    c.Passing w E O up number n (ps ++ [⟨c, s.key, handle⟩]) ⟨c, s.key, handle⟩ (ss ++ [s]) m w₂ v' := by
  let p : Node := ⟨c, s.key, handle⟩
  have hbefore : n :: ps ⊆ n :: (ps ++ [p]) := List.subset_append_left (n :: ps) [p]
  have hafter : p ∈ n :: (ps ++ [p]) := List.mem_append_right (n :: ps) (List.mem_singleton_self p)
  have hcases : ∀ q ∈ n :: (ps ++ [p]), q ∈ n :: ps ∨ q = p := fun q hq =>
    (List.mem_append.1 (show q ∈ (n :: ps) ++ [p] from hq)).imp_right List.mem_singleton.1
  have hobject : s.object ∈ O := by
    rw [upward] at hs
    split at hs
    · next hup =>
      split at hs <;> cases hs
      exact hclosed o ho _ hup
    · cases hs
  have hseen : ∀ t ∈ ss ++ [s], t.object ∈ O := by
    intro t ht
    rcases List.mem_append.1 ht with ht | ht
    · exact h.seen t ht
    · obtain rfl := List.mem_singleton.1 ht
      exact hobject
  refine ⟨hw, hb, ?_, hseen, hafter, ?_, fun q hq => ?_, fun q hq => ?_, fun q hq hne => ?_⟩
  · rw [List.length_append, List.length_append, h.length, List.length_singleton, List.length_singleton]
  · rw [← List.cons_append, List.map_append, List.nodup_append']
    exact ⟨h.distinct, List.nodup_singleton _, by simpa using hnew⟩
  · rcases List.mem_append.1 hq with hq | hq
    · exact h.found q hq
    · obtain rfl := List.mem_singleton.1 hq
      exact ⟨o, ho, by rw [hs]; rfl⟩
  · rcases hcases q hq with hq | rfl
    · obtain ⟨o', ho', hfor'⟩ := h.nodes q hq
      exact ⟨o', ho', hfor'.later hr [s]⟩
    · have hle := h.length_le
      have hlength : (ss ++ [s]).length = ps.length + 1 := by
        rw [List.length_append, h.length, List.length_singleton]
      exact hwithin.node_for hr hholds (by omega) hseen hget
  · have hq := (hcases q hq).resolve_right hne
    by_cases hl : q = l
    · subst hl
      exact ⟨o, ho, hfor.later hr [s], s, hs, List.mem_map.2 ⟨p, hafter, rfl⟩⟩
    · exact (h.onward q hq hl).later hr [s] hbefore

end Passing

/-- A walk that has not come back ends, or goes on until it does. -/
theorem Passing.ends_or_comes_back (hsteady : c.Steady (Engine.ofFuel fuel room) O up number w)
    (hf : c.NumbersBy f w) (hholds : (w.context c).Holds) (hwithin : (w.context c).Within O)
    (hsize : (w.context c).custodian.slots.size + O.card < 2 ^ 32)
    (h : c.Passing w (Engine.ofFuel fuel room) O up number n ps l ss m w₁ v)
    (hclimbs : n.Climbs (Engine.ofFuel fuel room) w₀ ps l v) :
    ∃ qs, (n :: qs).Nodup ∧ qs.length ≤ O.card ∧
      (n.EndsAfter (Engine.ofFuel fuel room) w₀ qs ∨ n.ComesBack (Engine.ofFuel fuel room) w₀ qs) := by
  -- Each step takes up one of the objects that a node can still be found from.
  induction hleft : O.card - ps.length using Nat.strongRecOn generalizing ps l ss w₁ v with
  | ind d ih =>
  obtain ⟨o, ho, hfor⟩ := h.nodes l h.last
  obtain ⟨-, r, w₂, v₂, hrun, hr, hw₂, hb₂⟩ | ⟨s, handle, w₂, v₂, hs, hrun, hget, hw₂, hb₂⟩ :=
    hsteady.parent_run hf h.numbered h.beside ho hfor
  · exact ⟨ps, h.distinct.of_map _, h.length_le,
      .inl (.of_climbs hclimbs hrun hr (hsteady.view_returned hw₂ hb₂ ho hfor))⟩
  · by_cases hkey : s.key ∈ (n :: ps).map Proxy.key
    · obtain ⟨q, hq, hsame⟩ := List.mem_map.1 hkey
      obtain ⟨_, _, hknown⟩ := h.nodes q hq
      obtain ⟨-, rfl⟩ := hknown.eq_of_key hsame hget
      refine ⟨ps, h.distinct.of_map _, h.length_le, .inr ⟨⟨l, v, _, hclimbs, by rw [hrun], hq⟩, fun k => ?_⟩⟩
      rcases Nat.le_total k ps.length with hk | hk
      · exact hclimbs.exhausted hk
      · obtain ⟨j, rfl⟩ := Nat.exists_eq_add_of_le' hk
        rw [hclimbs.lastParent]
        refine Node.lastParent_circle hsteady hf (fun q hq => ?_) j h.last h.numbered h.beside
        by_cases hl : q = l
        · subst hl
          exact ⟨o, ho, hfor, s, hs, hkey⟩
        · exact h.onward q hq hl
    · have hnext := h.step hf.ready hholds hwithin hsize hsteady.closed ho hfor hs hkey hget hw₂ hb₂
      have hle := hnext.length_le
      rw [List.length_append, List.length_singleton] at hle
      exact ih _ (by rw [List.length_append, List.length_singleton]; omega) hnext (hclimbs.step hrun) rfl

end ContextId

/-! ## Keys that are properties -/

namespace ContextId

/-- The function body that answers with a property of the argument. -/
def readsArgument (name : String) : Expr := .get (.argument 0) (.value (.ofString name))

theorem readsArgument_run {name : String} {x : Value} (hroom : 2 * Eval.expressionSize ≤ E.room)
    (hx : w.heap.datum? o name = some x) :
    Eval.eval ⟨.undefined, [.object o], .undefined⟩ (readsArgument name) E w = (.ok x, w) := by
  have hargument : Eval.eval ⟨.undefined, [.object o], .undefined⟩ (.argument 0)
      { E with room := E.room - Eval.expressionSize } w = (.ok (.object o), w) := by
    rw [Eval.eval, Eval.nested_run _ (by change Eval.expressionSize ≤ E.room - Eval.expressionSize; omega)]
    rfl
  have hkey : Eval.eval ⟨.undefined, [.object o], .undefined⟩ (.value (.ofString name))
      { E with room := E.room - Eval.expressionSize } w = (.ok (.ofString name), w) := by
    rw [Eval.eval, Eval.nested_run _ (by change Eval.expressionSize ≤ E.room - Eval.expressionSize; omega)]
    rfl
  rw [readsArgument, Eval.eval, Eval.nested_run _ (by omega), bind_of_ok hargument]
  refine (bind_of_ok (a := o) rfl).trans ((bind_of_ok hkey).trans ?_)
  refine (bind_of_ok (a := .ofString name) rfl).trans ?_
  exact getProperty_of_datum hx _

/-- Numbering by a property gives the key that the property has, and leaves all objects alone. -/
theorem nodeKey_of_reads {r : ObjectRef} {name : String} {x : Value} {key : Int64}
    (hf : c.NumbersBy (.object r) w)
    (hbody : (w.heap.object r).kind = .function (.body (readsArgument name)))
    (hroom : Eval.callSize + 2 * Eval.expressionSize ≤ room) (hx : w.heap.datum? o name = some x)
    (hkey : x.int64? = some key) : ∃ w', c.nodeKey o (Engine.ofFuel (fuel + 1) room) w = (.ok key, w') ∧
      w'.heap = w.heap ∧ w'.hostCalls = w.hostCalls ∧ c.NumbersBy (.object r) w' := by
  obtain ⟨w₁, -, hheap, hcalls, hcall⟩ := c.callFunction_run [.object o] fuel room hbody (by omega)
  have heval := readsArgument_run (E := Engine.ofFuel fuel (room - Eval.callSize)) (w := w₁.mark) (o := o)
    (by rw [Engine.ofFuel_room]; omega) (by rw [← hx, ← hheap]; rfl)
  have hpresent : x.isAbsent = false := by
    cases x <;> first | rfl | cases hkey
  have hrun : c.nodeKey o (Engine.ofFuel (fuel + 1) room) w = (.ok key, w₁.mark.mark.settled c) := by
    have hsame : Operation.function (.object r) (Engine.ofFuel (fuel + 1) room) w = (.ok (.object r), w) := by
      rw [Operation.function_eq, if_pos (Heap.isFunction_of_kind hbody)]
    have hcalled : (c.callFunction (.object r) [.object o]).located "getNodeId"
        (Engine.ofFuel (fuel + 1) room) w = (.ok x, w₁.mark.mark.settled c) := by
      rw [located_eq, hcall _ _ heval]
      rfl
    rw [hf.nodeKey_eq, keyThrough, bind_of_ok hsame, bind_of_ok hcalled, located_eq,
      Conversion.required_of_present hpresent, Conversion.toInt64, Conversion.ofOption_run, hkey]
    rfl
  refine ⟨_, hrun, hheap, hcalls, ?_⟩
  have hunless := c.nodeKey_nonRetaining o _ (World.KeepsUnless.contextRegime Crossing.isHost c) _
    (Engine.ofFuel_keepsUnless c (fuel + 1) room) w
  rw [hrun] at hunless
  exact ((Took.refl c .node w).of_keepsUnless hunless hcalls).numbersBy hf

/-- Such a numbering holds still. -/
theorem Steady.of_reads {r : ObjectRef} {name : String} {key : ObjectRef → Int64}
    (hf : c.NumbersBy (.object r) w)
    (hbody : (w.heap.object r).kind = .function (.body (readsArgument name)))
    (hroom : Eval.callSize + 2 * Eval.expressionSize ≤ room)
    (hparent : ∀ o ∈ O, w.heap.datum? o "parent" = some (up o))
    (hkind : ∀ o ∈ O, (w.heap.datum? o "kind").isSome)
    (hkey : ∀ o ∈ O, (w.heap.datum? o name).bind Value.int64? = some (key o))
    (hclosed : ∀ o ∈ O, ∀ p, up o = .object p → p ∈ O) :
    c.Steady (Engine.ofFuel (fuel + 1) room) O up (fun o => .ok (key o)) w := by
  have hnext {w₁ : World} (hheap : w₁.heap = w.heap) (hf₁ : c.NumbersBy (.object r) w₁) {o : ObjectRef}
      (ho : o ∈ O) : ∃ w', c.nodeKey o (Engine.ofFuel (fuel + 1) room) w₁ = (.ok (key o), w') ∧
        w'.heap = w.heap ∧ w'.hostCalls = w₁.hostCalls ∧ c.NumbersBy (.object r) w' := by
    obtain ⟨x, hx, hint⟩ := Option.bind_eq_some_iff.1 (hkey o ho)
    rw [← hheap] at hbody hx ⊢
    exact nodeKey_of_reads hf₁ hbody hroom hx hint
  have hstill {w₁ : World} (h : c.Numbered (Engine.ofFuel (fuel + 1) room) O w w₁) :
      w₁.heap = w.heap ∧ w₁.hostCalls = w.hostCalls ∧ c.NumbersBy (.object r) w₁ := by
    induction h with
    | start => exact ⟨rfl, rfl, hf⟩
    | next _ ho ih =>
      obtain ⟨hheap, hcalls, hf₁⟩ := ih
      obtain ⟨w', hrun, hheap', hcalls', hf'⟩ := hnext hheap hf₁ ho
      rw [hrun]
      exact ⟨hheap', hcalls'.trans hcalls, hf'⟩
  refine ⟨fun h o ho => ?_, fun h o ho => ?_, fun h o ho => ?_, fun h => (hstill h).2.1, hclosed⟩
  · rw [(hstill h).1]
    exact hparent o ho
  · rw [(hstill h).1]
    exact Option.isSome_iff_exists.1 (hkind o ho)
  · obtain ⟨hheap, -, hf₁⟩ := hstill h
    obtain ⟨w', hrun, -⟩ := hnext hheap hf₁ ho
    rw [hrun]
    rfl

end ContextId

/-! ## The source file -/

/-- The source file of a node that has no function for it, on a side that holds still. Either the walk ends:
it reads one parent for each of some different nodes, no more than there are objects, and there is an answer.
Or it comes back to a node that it has passed, and then there is none. -/
theorem Node.sourceFile_returns {F : Multiset Reference} (hs : w.Sound F) (hv : c.index < w.contexts.size)
    (ho : (w.context c).custodian.closed = false)
    (hsteady : c.Steady (Engine.ofFuel fuel room) O up number w) (hwithin : (w.context c).Within O)
    (hsize : (w.context c).custodian.slots.size + O.card < 2 ^ 32) (hn : For c (w.context c) ⟨o, n.key⟩ n)
    (hO : o ∈ O) {x : Value} (hmethod : w.heap.datum? o "getSourceFile" = some x)
    (hnone : w.heap.isFunction x = false) :
    ∃ w₀ ps, n.core.hasMethod "getSourceFile" (Engine.ofFuel fuel room) w = (.ok false, w₀) ∧
      (n :: ps).Nodup ∧ ps.length ≤ O.card ∧
      ((n.EndsAfter (Engine.ofFuel fuel room) w₀ ps ∧
          (ps.length < fuel → Returned (n.sourceFile (Engine.ofFuel fuel room) w).1)) ∨
        (n.ComesBack (Engine.ofFuel fuel room) w₀ ps ∧
          (n.sourceFile (Engine.ofFuel fuel room) w).1 = .error .exhausted)) := by
  have hslots : (w.context c).custodian.slots.size ≤ 2 ^ 32 := by omega
  have hholds := hs.holds hv ho hslots
  obtain ⟨f, hf⟩ := hs.numbersBy hv ho hslots
  obtain ⟨w₀, hhas, hb, hrun⟩ :=
    sourceFile_run hn hf.ready fuel room (ContextId.methodSight_of_datum hmethod hnone _) rfl
  obtain ⟨ps, hdistinct, hlength, hends | hback⟩ :=
    (ContextId.Passing.start hb hO hn).ends_or_comes_back hsteady hf hholds hwithin hsize .start
  · refine ⟨w₀, ps, hhas, hdistinct, hlength, .inl ⟨hends, fun hk => ?_⟩⟩
    rw [hrun]
    exact hends.answers fuel hk
  · refine ⟨w₀, ps, hhas, hdistinct, hlength, .inr ⟨hback, ?_⟩⟩
    rw [hrun]
    exact bind_stops (hback.reads fuel)

/-- Among nodes each of which has one of them for a parent, none has a source file. -/
theorem Node.sourceFile_circle (hsteady : c.Steady (Engine.ofFuel fuel room) O up number w)
    (hf : c.NumbersBy f w) (hqs : ∀ q ∈ qs, Onward c O up number (w.context c) qs q) (hq : n ∈ qs)
    (hn : For c (w.context c) ⟨o, n.key⟩ n) {x : Value} (hmethod : w.heap.datum? o "getSourceFile" = some x)
    (hnone : w.heap.isFunction x = false) :
    (n.sourceFile (Engine.ofFuel fuel room) w).1 = .error .exhausted := by
  obtain ⟨w₀, -, hb, hrun⟩ :=
    sourceFile_run hn hf.ready fuel room (ContextId.methodSight_of_datum hmethod hnone _) rfl
  have hcircle : ∀ q ∈ qs, Onward c O up number ((w.context c).seesAll .node []) qs q := hqs
  rw [hrun]
  exact bind_stops (lastParent_circle hsteady hf hcircle fuel hq .start hb)

theorem Context.within_of_entries {cx : Context} (h : ∀ e ∈ (cx.identities .node).entries,
    ∃ o ∈ O, (cx.custodian.get e.2).toOption = some (.object o)) : cx.Within O := by
  intro key x hx
  obtain ⟨handle, hentry, hget⟩ := Option.map_eq_some_iff.1 hx
  obtain ⟨before, after, hsplit, -⟩ := List.lookup_eq_some_iff.1 hentry
  obtain ⟨o, ho, hobject⟩ := h (key, handle) (by rw [hsplit]; simp)
  rw [hget] at hobject
  exact ⟨o, ho, Option.some_inj.1 hobject⟩

namespace Session

/-- The objects of the sample that have a parent or are one. -/
def chainObjects : Finset ObjectRef := {⟨6⟩, ⟨7⟩, ⟨8⟩, ⟨9⟩, ⟨10⟩, ⟨11⟩}

def chainUp (o : ObjectRef) : Value := (chainWorld.heap.datum? o "parent").getD .undefined

def chainKey (o : ObjectRef) : Int64 := ((chainWorld.heap.datum? o "id").bind Value.int64?).getD 0

theorem reads_of_matches {kind : ObjectKind} (h : (match kind with
    | .function (.body (.get (.argument 0) (.value (.text t)))) => decide (t = Units.ofString "id")
    | _ => false) = true) : kind = .function (.body (ContextId.readsArgument "id")) := by
  split at h
  · obtain rfl := of_decide_eq_true h
    rfl
  · cases h

theorem chainWorld_numbers : (⟨0⟩ : ContextId).NumbersBy (.object ⟨3⟩) chainWorld := by
  obtain ⟨-, ho, hreferences, -⟩ := chainWorld_open
  have hget : ((chainWorld.context ⟨0⟩).custodian.get (chainWorld.context ⟨0⟩).nodeId).toOption =
      some (.object ⟨3⟩) := by decide +kernel
  exact ⟨⟨ho, hreferences⟩, get_of_toOption hget⟩

theorem chainWorld_data : (∀ o ∈ chainObjects, chainWorld.heap.datum? o "parent" = some (chainUp o)) ∧
    (∀ o ∈ chainObjects, (chainWorld.heap.datum? o "kind").isSome) ∧
    (∀ o ∈ chainObjects, (chainWorld.heap.datum? o "id").bind Value.int64? = some (chainKey o)) ∧
    (∀ o ∈ chainObjects, (chainUp o matches .object _) = true →
      chainUp o ∈ chainObjects.image Value.object) ∧
    (∀ o ∈ chainObjects, chainWorld.heap.datum? o "getSourceFile" = some .undefined) ∧
    chainWorld.heap.isFunction .undefined = false := by
  decide +kernel

theorem chainWorld_steady (fuel : Nat) : (⟨0⟩ : ContextId).Steady (Engine.ofFuel (fuel + 1) stackSize)
    chainObjects chainUp (fun o => .ok (chainKey o)) chainWorld := by
  obtain ⟨hparent, hkind, hkey, hobjects, -⟩ := chainWorld_data
  have hbody : (chainWorld.heap.object ⟨3⟩).kind = .function (.body (ContextId.readsArgument "id")) :=
    reads_of_matches (by decide +kernel)
  refine .of_reads chainWorld_numbers hbody (by decide) hparent hkind hkey fun o ho p hp => ?_
  have hmem := hobjects o ho (by rw [hp])
  rw [hp] at hmem
  obtain ⟨p', hp', hsame⟩ := Finset.mem_image.1 hmem
  cases hsame
  exact hp'

/-- From the leaf there is a way to a source file, and from a node in the ring there is none. -/
theorem sourceFile_returns_sample :
    (∃ w₀ ps, leafNode.EndsAfter (Engine.ofFuel 7 stackSize) w₀ ps ∧
      Returned (leafNode.sourceFile (Engine.ofFuel 7 stackSize) chainWorld).1) ∧
    ∃ w₀ ps, ringNode.ComesBack (Engine.ofFuel 7 stackSize) w₀ ps ∧
      (ringNode.sourceFile (Engine.ofFuel 7 stackSize) chainWorld).1 = .error .exhausted := by
  have hsound : chainWorld.Sound 0 := (last_transitions.moves.sound_later Holdings.empty_sound).1
  obtain ⟨hv, ho, -, hslots⟩ := chainWorld_open
  obtain ⟨-, -, -, -, hmethods, hnone⟩ := chainWorld_data
  have hcard : chainObjects.card = 6 := by decide
  have hsize : (chainWorld.context ⟨0⟩).custodian.slots.size + chainObjects.card < 2 ^ 32 := by omega
  have hwithin : (chainWorld.context ⟨0⟩).Within chainObjects :=
    Context.within_of_entries (by decide +kernel)
  have hsteady : (⟨0⟩ : ContextId).Steady (Engine.ofFuel 7 stackSize) chainObjects chainUp
      (fun o => .ok (chainKey o)) chainWorld := chainWorld_steady 6
  have hruns : (leafNode.sourceFile (Engine.ofFuel 7 stackSize) chainWorld).1.toOption.isSome ∧
      (ringNode.sourceFile (Engine.ofFuel 7 stackSize) chainWorld).1.toOption.isNone ∧
      (failure? (ringNode.sourceFile (Engine.ofFuel 7 stackSize) chainWorld).1).isNone := by decide +kernel
  obtain ⟨hfile, hwithout, hstuck⟩ := hruns
  constructor
  · obtain ⟨w₀, ps, -, -, hlength, ⟨hends, hreturns⟩ | ⟨-, hnever⟩⟩ :=
      Node.sourceFile_returns hsound hv ho hsteady hwithin hsize (chainWorld_for leafNode ⟨6⟩ (by decide))
        (by decide) (hmethods ⟨6⟩ (by decide)) hnone
    · exact ⟨w₀, ps, hends, hreturns (by omega)⟩
    · rw [hnever] at hfile
      cases hfile
  · obtain ⟨w₀, ps, -, -, hlength, ⟨hends, hreturns⟩ | ⟨hback, hnever⟩⟩ :=
      Node.sourceFile_returns hsound hv ho hsteady hwithin hsize (chainWorld_for ringNode ⟨10⟩ (by decide))
        (by decide) (hmethods ⟨10⟩ (by decide)) hnone
    · obtain ⟨f, hf⟩ | ⟨e, he⟩ := hreturns (by omega)
      · rw [hf] at hwithout
        cases hwithout
      · rw [he] at hstuck
        cases hstuck
    · exact ⟨w₀, ps, hback, hnever⟩

/-- On the side of the sample, whose objects have only data and keep their keys, the source file of a node in
the ring is never found, however many parents may be read. -/
theorem ring_never_ends :
    (chainWorld.heap.datum? ⟨10⟩ "parent" = some (.object ⟨11⟩) ∧
      chainWorld.heap.datum? ⟨11⟩ "parent" = some (.object ⟨10⟩) ∧
      chainWorld.heap.datum? ⟨10⟩ "getSourceFile" = some .undefined) ∧
    ∀ fuel, (⟨0⟩ : ContextId).Steady (Engine.ofFuel (fuel + 1) stackSize) chainObjects chainUp
        (fun o => .ok (chainKey o)) chainWorld ∧
      (ringNode.sourceFile (Engine.ofFuel (fuel + 1) stackSize) chainWorld).1 = .error .exhausted := by
  have hround : (chainWorld.heap.datum? ⟨10⟩ "parent" = some (.object ⟨11⟩) ∧
        chainWorld.heap.datum? ⟨11⟩ "parent" = some (.object ⟨10⟩)) ∧
      ContextId.upward chainUp (fun o => .ok (chainKey o)) ⟨10⟩ = some ⟨⟨11⟩, 6⟩ ∧
      ContextId.upward chainUp (fun o => .ok (chainKey o)) ⟨11⟩ = some ⟨⟨10⟩, 5⟩ := by decide +kernel
  obtain ⟨⟨hparent, hparent'⟩, hup, hup'⟩ := hround
  obtain ⟨-, -, -, -, hmethods, hnone⟩ := chainWorld_data
  have hmethod := hmethods ⟨10⟩ (by decide)
  have hring := chainWorld_for ringNode ⟨10⟩ (by decide)
  have hall : ∀ q ∈ [ringNode, roundNode], Node.Onward ⟨0⟩ chainObjects chainUp (fun o => .ok (chainKey o))
      (chainWorld.context ⟨0⟩) [ringNode, roundNode] q := by
    intro q hq
    obtain rfl | rfl : q = ringNode ∨ q = roundNode := by simpa using hq
    · exact ⟨⟨10⟩, by decide, hring, ⟨⟨11⟩, 6⟩, hup, by decide⟩
    · exact ⟨⟨11⟩, by decide, chainWorld_for roundNode ⟨11⟩ (by decide), ⟨⟨10⟩, 5⟩, hup', by decide⟩
  refine ⟨⟨hparent, hparent', hmethod⟩, fun fuel => ⟨chainWorld_steady fuel, ?_⟩⟩
  exact Node.sourceFile_circle (chainWorld_steady fuel) chainWorld_numbers hall List.mem_cons_self hring
    hmethod hnone

end Session

end ProxySession
