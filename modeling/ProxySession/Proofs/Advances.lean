import ProxySession.Proofs.Tokens

/-!
# Advances of a session

An `Advance` is a transition with the contexts that end in it: those that are told to close, and those whose
last reference goes. A session makes progress by a run of advances, and its endings come in order.
-/

namespace ProxySession

/-- The books of a context, and whether it is closed. -/
def Context.standing (cx : Context) : (List HostFailure × Nat) × Bool :=
  (cx.books, cx.custodian.closed)

/-! ## Operations that end no context -/

namespace Holdings

/-- Each context keeps its standing, and no list is left with its handle that was not before. -/
structure SameStanding (h h' : Holdings) : Prop where
  standing : ∀ c, (h'.context c).standing = (h.context c).standing
  left : ∀ l, (h'.list l).left = true → (h.list l).left = true

namespace SameStanding

variable {h h' h'' : Holdings}

theorem books (hs : h.SameStanding h') : h.SameBooks h' :=
  ⟨fun c => congrArg Prod.fst (hs.standing c), hs.left⟩

theorem closed (hs : h.SameStanding h') (c : ContextId) :
    (h'.context c).custodian.closed = (h.context c).custodian.closed :=
  congrArg Prod.snd (hs.standing c)

theorem trans (h₁ : h.SameStanding h') (h₂ : h'.SameStanding h'') : h.SameStanding h'' :=
  ⟨fun c => (h₂.standing c).trans (h₁.standing c), fun l hl => h₁.left l (h₂.left l hl)⟩

theorem of_contexts (he : h'.contexts = h.contexts) (hl : h'.lists = h.lists) : h.SameStanding h' where
  standing c := by rw [context, context, he]
  left l := by
    rw [list, list, hl]
    exact id

theorem modifyContext (c : ContextId) (h : Holdings) {f : Context → Context}
    (hf : ∀ cx : Context, (f cx).standing = cx.standing) : h.SameStanding (h.modifyContext c f) :=
  ⟨same_modifyContext Context.standing c h hf, fun _ => id⟩

theorem take (r : Reference) (h : Holdings) : h.SameStanding (h.take r) := by
  cases r with
  | list l =>
    have hm : h.SameBooks (h.take (.list l)) := SameBooks.modifyList l h fun _ => rfl
    exact ⟨fun _ => rfl, hm.left⟩
  | context c => exact modifyContext c h fun _ => rfl
  | scanner s => exact of_contexts rfl rfl

theorem enroll (c : ContextId) (k : ProxyKind) (r : ObjectRef) (key : Int64) (h : Holdings) :
    h.SameStanding (h.enroll c k r key) := by
  have hretain : h.SameStanding (h.retain c (.object r)) := modifyContext c h fun _ => rfl
  have hentry : (h.retain c (.object r)).SameStanding
      ((h.retain c (.object r)).addEntry c k key (h.nextHandle c)) :=
    modifyContext c _ fun cx => by cases k <;> rfl
  exact (hretain.trans hentry).trans (of_contexts rfl rfl)

theorem convert (c : ContextId) (v : Value) (length : Nat) (h : Holdings) :
    h.SameStanding (h.convert c v length) where
  standing := same_modifyContext Context.standing c h fun _ => rfl
  left l := by
    have hl : (h.convert c v length).list l =
        if l.index = h.lists.size then
          { context := c, handle := h.nextHandle c, length, clones := 1, origin := v }
        else h.list l := getD_push h.lists _ l.index
    rw [hl]
    split
    · exact fun hleft => nomatch hleft
    · exact id

theorem openSession (c : ContextId) (text : String) (r : ObjectRef) (h : Holdings) :
    h.SameStanding (h.openSession c text r) := by
  refine SameStanding.trans ?_ (take (.context c) _)
  have hs : h.SameStanding { h with scanners := h.scanners.push (freshSession c text r) } :=
    of_contexts rfl rfl
  exact hs.trans (modifyContext c _ fun _ => rfl)

/-- A new context is open with empty books, as an unknown one counts. -/
theorem openContext {cx : Context} (hcx : cx.standing = (([], 0), false)) (h : Holdings) :
    h.SameStanding (h.openContext cx) := by
  refine ⟨fun c => ?_, fun _ => id⟩
  have hc : (h.openContext cx).context c = if c.index = h.contexts.size then cx else h.context c :=
    getD_push h.contexts cx c.index
  rw [hc]
  split
  · next hi =>
    have hd : h.context c = default := getD_of_size_le (Nat.le_of_eq hi.symm)
    rw [hcx, hd]
    rfl
  · rfl

end SameStanding

theorem closed_modifyContext (c : ContextId) (h : Holdings) {f : Context → Context}
    (hf : ∀ cx : Context, (f cx).custodian.closed = cx.custodian.closed) (d : ContextId) :
    ((h.modifyContext c f).context d).custodian.closed = (h.context d).custodian.closed :=
  same_modifyContext (fun cx => cx.custodian.closed) c h hf d

end Holdings

/-! ## Advances -/

/-- An advance from one world to another, and the contexts that end in it. -/
inductive Advance : List Ending → Multiset Reference × World → Multiset Reference × World → Prop
  | quiet {F F' w w'} (h : Transition (F, w) (F', w')) (hw : w'.warnings = w.warnings)
    (ho : ∀ c, (w'.context c).custodian.closed = (w.context c).custodian.closed) :
    Advance [] (F, w) (F', w')
  | tearDown {F w} (c : ContextId) : Advance (w.toldTo c) (F, w) (F, (w.tearDown c).2)
  | giveBack {F w} (r : Reference) : Advance (w.endedBy r) (r ::ₘ F, w) (F, w.giveBack r)

/-- A run of advances, and the contexts that end in it one after the other. -/
inductive Advances (p : Multiset Reference × World) :
    List Ending → Multiset Reference × World → Prop
  | refl : Advances p [] p
  | tail {es es' q r} (h : Advances p es q) (hlast : Advance es' q r) : Advances p (es ++ es') r

/-- Some run of advances. What was recorded of crossings stays, no key becomes a token, and visitors keep
to their collections. -/
structure Headway (F : Multiset Reference) (w : World) (F' : Multiset Reference) (w' : World) :
    Prop where
  advances : ∃ es, Advances (F, w) es (F', w')
  record : w.crossings.toList <+: w'.crossings.toList
  untokened : w.toHoldings.Untokened w'.toHoldings
  collects : w.Collects w'

/-- Headway that keeps the tokens in order. -/
structure Progress (F : Multiset Reference) (w : World) (F' : Multiset Reference) (w' : World) :
    Prop extends Headway F w F' w' where
  tokened : w.Tokened → w'.Tokened

theorem Advance.transition {es : List Ending} {p q : Multiset Reference × World} (h : Advance es p q) :
    Transition p q := by
  cases h with
  | quiet h _ _ => exact h
  | @tearDown F w c =>
    have hb := World.tearDown_becomes c w
    exact .move (.change (.shutContext c) hb)
      ((World.tearDown_tacit c w).indoors.calm (hb.holdings ▸ .shutContext c _))
  | @giveBack F w r =>
    have hb := World.giveBack_becomes r w
    exact .move (.change (.drop r) hb)
      ((World.giveBack_indoors r w).calm (hb.holdings ▸ .giveBack r _))

namespace Advances

variable {p q r : Multiset Reference × World} {es es' : List Ending}

theorem single (h : Advance es p q) : Advances p es q := Advances.refl.tail h

theorem trans (h₁ : Advances p es q) (h₂ : Advances q es' r) : Advances p (es ++ es') r := by
  induction h₂ with
  | refl => rwa [List.append_nil]
  | tail _ hlast ih =>
    rw [← List.append_assoc]
    exact ih.tail hlast

theorem transitions (h : Advances p es q) : Relation.ReflTransGen Transition p q := by
  induction h with
  | refl => exact .refl
  | tail _ hlast ih => exact ih.tail hlast.transition

end Advances

namespace Headway

variable {F F' F'' : Multiset Reference} {w w' w'' : World}

theorem moves (h : Headway F w F' w') : Moves F w F' w' := by
  obtain ⟨es, ha⟩ := h.advances
  exact Transitions.moves ha.transitions

/-- What a session reaches has a heap that evolved. -/
theorem heap (h : Headway F w F' w') : w.heap.Evolves w'.heap := by
  obtain ⟨es, ha⟩ := h.advances
  have hall {p q : Multiset Reference × World} (h : Relation.ReflTransGen Transition p q) :
      p.2.heap.Evolves q.2.heap := by
    induction h with
    | refl => exact .refl _
    | tail _ hlast ih =>
      cases hlast with
      | move _ hcalm => exact ih.trans hcalm.heap
      | settle c => exact ih
      | fail e r _ _ => exact ih
  exact hall ha.transitions

theorem trans (h₁ : Headway F w F' w') (h₂ : Headway F' w' F'' w'') : Headway F w F'' w'' where
  advances := by
    obtain ⟨es₁, ha₁⟩ := h₁.advances
    obtain ⟨es₂, ha₂⟩ := h₂.advances
    exact ⟨_, ha₁.trans ha₂⟩
  record := h₁.record.trans h₂.record
  untokened := h₁.untokened.trans h₂.untokened
  collects := h₁.collects.trans h₂.collects

theorem quiet (h : Transition (F, w) (F', w')) (hw : w'.warnings = w.warnings)
    (ho : ∀ c, (w'.context c).custodian.closed = (w.context c).custodian.closed)
    (hr : w.crossings.toList <+: w'.crossings.toList)
    (hu : w.toHoldings.Untokened w'.toHoldings) (hk : w.Collects w') : Headway F w F' w' :=
  ⟨⟨[], .single (.quiet h hw ho)⟩, hr, hu, hk⟩

/-- A step that leaves the holdings alone. -/
theorem still (hb : w.Becomes w' w.toHoldings) (hc : w.Calm w') (hw : w'.warnings = w.warnings)
    (hr : w.crossings.toList <+: w'.crossings.toList) (hk : w.Collects w') : Headway F w F w' :=
  .quiet (.move (.still hb) hc) hw (fun c => by rw [hb.holdings]) hr
    (fun c k hk => by rwa [hb.holdings]) hk

theorem change {h : Holdings} (hc : Change F w.toHoldings F' h) (hw : w.Turns w' h)
    (hb : w.toHoldings.SameStanding h) (hu : w.toHoldings.Untokened h) : Headway F w F' w' :=
  .quiet (.move (.change hc hw.toBecomes) (hw.tacit.indoors.calm (hw.holdings ▸ hb.books)))
    hw.tacit.warnings (fun c => by rw [hw.holdings]; exact hb.closed c) hw.tacit.indoors.record
    (hw.holdings ▸ hu) hw.tacit.indoors.collects

theorem settle (c : ContextId) : Headway F w F (w.settled c) :=
  .quiet (.settle c) rfl (Holdings.closed_modifyContext c w.toHoldings fun _ => rfl) List.prefix_rfl
    (Holdings.Tame.modifyContext c w.toHoldings (.of_slots rfl rfl rfl rfl)).untokened
    (.of_same rfl rfl rfl)

end Headway

namespace Progress

variable {F F' F'' : Multiset Reference} {w w' w'' : World}

theorem transitions (h : Progress F w F' w') : Transitions F w F' w' := by
  obtain ⟨es, h⟩ := h.advances
  exact h.transitions

theorem moves (h : Progress F w F' w') : Moves F w F' w' := h.toHeadway.moves

theorem refl : Progress F w F w :=
  ⟨⟨⟨[], .refl⟩, List.prefix_rfl, .refl _, .of_same rfl rfl rfl⟩, id⟩

theorem trans (h₁ : Progress F w F' w') (h₂ : Progress F' w' F'' w'') : Progress F w F'' w'' :=
  ⟨h₁.toHeadway.trans h₂.toHeadway, fun ht => h₂.tokened (h₁.tokened ht)⟩

theorem rests (h : w.Rests w') : Progress F w F w' :=
  ⟨.still ⟨h.holdings, h.history⟩ h.calm h.warnings h.record h.collects,
    fun ht => ht.tame (h.holdings ▸ .refl _) h.heap h.numberings h.history⟩

theorem change {h : Holdings} (hc : Change F w.toHoldings F' h) (hw : w.Turns w' h)
    (hb : w.toHoldings.SameStanding h) (hh : w.toHoldings.Tame h) : Progress F w F' w' :=
  ⟨.change hc hw hb hh.untokened, fun ht => ht.indoors hw.tacit.indoors hw.toBecomes hh⟩

/-- Progress that owns nothing at either end is a regime. -/
theorem regime : Regime fun w w' => ∀ F, Progress F w F w' :=
  ⟨fun ha _ => .rests ha.rests, fun h₁ h₂ F => (h₁ F).trans (h₂ F)⟩

theorem mark : Progress F w F w.mark :=
  ⟨.quiet (.move .mark ⟨.refl _, rfl, .refl _⟩) rfl (fun _ => rfl) List.prefix_rfl (.refl _)
    (.of_same rfl rfl rfl), .mark⟩

/-- A collection that is new may be emptied on the way. -/
theorem forget {k : Nat} (h : Progress F w F' w') (hk : w.collections.size ≤ k) :
    Progress F w F' (w'.forget k) where
  advances := by
    obtain ⟨es, ha⟩ := h.advances
    exact ⟨_, ha.tail (.quiet (.move (.still ⟨rfl, rfl⟩) ⟨.refl _, rfl, .refl _⟩) rfl fun _ => rfl)⟩
  record := h.record
  untokened := h.untokened
  collects := h.collects.forget hk
  tokened ht := (h.tokened ht).tame (.refl _) (.refl _) rfl rfl

theorem settle (c : ContextId) : Progress F w F (w.settled c) :=
  ⟨.settle c, fun ht =>
    ht.tame (.modifyContext c w.toHoldings (.of_slots rfl rfl rfl rfl)) (.refl _) rfl rfl⟩

theorem fail {c : ContextId} (e : SessionError) (r : ObjectRef) (hc : .context c ∈ F)
    (hr : w.heap.isError (.object r) = true) :
    Progress F w F (w.recordHostFailure ⟨c, (w.context c).lastTag + 1, e, r⟩) := by
  have hh : w.toHoldings.Tame
      (w.recordHostFailure ⟨c, (w.context c).lastTag + 1, e, r⟩).toHoldings :=
    .modifyContext c w.toHoldings (.of_slots rfl rfl rfl rfl)
  exact ⟨.quiet (.fail e r hc hr) rfl
    (Holdings.closed_modifyContext c w.toHoldings fun _ => rfl) List.prefix_rfl hh.untokened
    (.of_same rfl rfl rfl),
    fun ht => ht.tame hh (.refl _) rfl rfl⟩

theorem tearDown (c : ContextId) : Progress F w F (w.tearDown c).2 := by
  have hi := (World.tearDown_tacit c w).indoors
  have hb := World.tearDown_becomes c w
  have hh : w.toHoldings.Tame (w.toHoldings.shutContext c) := .shutContext c _
  exact ⟨⟨⟨_, .single (.tearDown c)⟩, hi.record, hb.holdings ▸ hh.untokened, hi.collects⟩,
    fun ht => ht.indoors hi hb hh⟩

/-! ## References -/

theorem take (r : Reference) (h : r ∈ w.variableReferences) : Progress F w (r ::ₘ F) (w.take r) :=
  .change (.hold h) (World.take_turns r w) (.take r _) (.take r _)

theorem giveBack (r : Reference) (w : World) : Progress (r ::ₘ F) w F (w.giveBack r) := by
  have hi := World.giveBack_indoors r w
  have hb := World.giveBack_becomes r w
  have hh : w.toHoldings.Tame (w.toHoldings.giveBack r) := .giveBack r _
  exact ⟨⟨⟨_, .single (.giveBack r)⟩, hi.record, hb.holdings ▸ hh.untokened, hi.collects⟩,
    fun ht => ht.indoors hi hb hh⟩

theorem takeAll : (rs : List Reference) → (w : World) → rs ⊆ w.variableReferences →
    (F : Multiset Reference) → Progress F w (rs + F) (rs.foldl (fun w r => w.take r) w)
  | [], w, _, F => by
    rw [Multiset.coe_nil, zero_add]
    exact .refl
  | r :: rest, w, h, F => by
    have hb : (World.take r w).variableReferences = w.variableReferences := by
      cases r <;> rfl
    have hstep : Progress F w (r ::ₘ F) (w.take r) := take r (h List.mem_cons_self)
    have hrest := takeAll rest (w.take r) (fun x hx => hb ▸ h (List.mem_cons_of_mem r hx)) (r ::ₘ F)
    rw [← Multiset.cons_coe, Multiset.cons_add, ← Multiset.add_cons]
    exact hstep.trans hrest

theorem giveAll : (rs : List Reference) → (w : World) → (F : Multiset Reference) →
    Progress (rs + F) w F (rs.foldl (fun w r => w.giveBack r) w)
  | [], w, F => by
    rw [Multiset.coe_nil, zero_add]
    exact .refl
  | r :: rest, w, F => by
    rw [← Multiset.cons_coe, Multiset.cons_add]
    exact (giveBack r w).trans (giveAll rest _ F)

/-- Taking a result that a variable keeps alive. -/
theorem hold {item : Item} (h : item.references ⊆ w.variableReferences) :
    Progress F w (item.references + F) (World.hold item w) := by
  rw [World.hold_eq_foldl]
  exact takeAll item.references w h F

/-- Giving up a result that a running operation owns. -/
theorem drop (item : Item) (w : World) (F : Multiset Reference) :
    Progress (item.references + F) w F (World.drop item w) := by
  rw [World.drop_eq_foldl]
  exact giveAll item.references w F

/-! ## Variables -/

theorem dropBound (name : String) (h : Holdings) (w : World) (F : Multiset Reference) :
    Progress (h.boundTo name + F) w F ((h.bindings.lookup name).elim w fun old => World.drop old w) := by
  rw [Holdings.boundTo]
  cases h.bindings.lookup name with
  | none =>
    rw [Option.elim_none, Multiset.coe_nil, zero_add]
    exact .refl
  | some old => exact drop old w F

theorem store (name : String) (item : Item) (w : World) (F : Multiset Reference) :
    Progress (item.references + F) w F (World.store name item w) := by
  have hb : Progress (item.references + F) w (w.boundTo name + F)
      { w with bindings := (name, item) :: w.bindings.filter fun v => v.1 != name } :=
    .change (.bind name item) ⟨⟨rfl, rfl⟩, .holdings w _⟩ (.of_contexts rfl rfl) (.same rfl rfl)
  have hd := dropBound name w.toHoldings
    { w with bindings := (name, item) :: w.bindings.filter fun v => v.1 != name } F
  rw [World.store]
  cases h : w.bindings.lookup name with
  | none => simpa only [h, Option.elim_none] using hb.trans hd
  | some old => simpa only [h, Option.elim_some] using hb.trans hd

theorem removeVariable (name : String) (w : World) (F : Multiset Reference) :
    Progress F w F (World.removeVariable name w) := by
  rw [World.removeVariable]
  cases h : w.bindings.lookup name with
  | none => exact .refl
  | some old =>
    have hb : Progress F w (w.boundTo name + F)
        { w with bindings := w.bindings.filter fun v => v.1 != name } :=
      .change (.unbind name) ⟨⟨rfl, rfl⟩, .holdings w _⟩ (.of_contexts rfl rfl) (.same rfl rfl)
    have hd := dropBound name w.toHoldings
      { w with bindings := w.bindings.filter fun v => v.1 != name } F
    simpa only [h, Option.elim_some] using hb.trans hd

end Progress

end ProxySession
