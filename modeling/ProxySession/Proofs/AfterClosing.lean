import ProxySession.Proofs.ClosedQueries
import ProxySession.Proofs.LaterHoldings

/-!
# After the closing of a context

Whatever foreign code runs after the closing of a context, the context stays closed, so the retaining
of a value is refused at last. What runs in a closed context hands out no proxy, list or session.
-/

namespace ProxySession

open Effect

variable {ε δ α β : Type} {c : ContextId} {P : α → Prop} {Q : β → Prop}

/-- A world after the closing of a context that a running operation keeps alive. -/
def Spent (c : ContextId) (w : World) : Prop :=
  ∃ F, .context c ∈ F ∧ w.Sound F ∧ (w.context c).custodian.closed = true

theorem Spent.closed {w : World} (h : Spent c w) : (w.context c).custodian.closed = true := by
  obtain ⟨F, _, _, hc⟩ := h
  exact hc

/-! ## Items that refer to nothing -/

namespace Item

mutual

/-- An item without a proxy, a list, a context or a session. -/
def isBare : Item → Bool
  | .proxy _ | .sourceFile _ | .view _ | .indexInfo _ | .nodeList _ | .context _ | .scanner _ => false
  | .list items => allBare items
  | _ => true

def allBare : List Item → Bool
  | [] => true
  | item :: rest => item.isBare && allBare rest

end

mutual

theorem references_of_bare : (item : Item) → item.isBare = true → item.references = []
  | .report _, _ | .foreign _, _ | .table _, _ | .custodian _, _ | .handle _, _ => by
    simp [references]
  | .retained _, _ | .identityMap _, _ => by simp [references]
  | .list items, h => by
    rw [references]
    exact allReferences_of_bare items h
  | .proxy _, h | .sourceFile _, h | .view _, h | .indexInfo _, h => by cases h
  | .nodeList _, h | .context _, h | .scanner _, h => by cases h

theorem allReferences_of_bare : (items : List Item) → allBare items = true →
    allReferences items = []
  | [], _ => rfl
  | item :: rest, h => by
    have hb : item.isBare = true ∧ allBare rest = true := by simpa [allBare] using h
    rw [allReferences, references_of_bare item hb.1, allReferences_of_bare rest hb.2]
    rfl

end

theorem allBare_of_forall {items : List Item} (h : ∀ item ∈ items, item.isBare = true) :
    allBare items = true := by
  induction items with
  | nil => rfl
  | cons item rest ih =>
    obtain ⟨hitem, hrest⟩ := List.forall_mem_cons.1 h
    rw [allBare, hitem, ih hrest]
    rfl

theorem drop_of_bare {item : Item} (h : item.isBare = true) (w : World) : World.drop item w = w := by
  rw [World.drop_eq_foldl, references_of_bare item h]
  rfl

theorem option_id_bare {o : Option Item} (h : ∀ item, o = some item → item.isBare = true) :
    (Item.option id o).isBare = true := by
  cases o with
  | none => rfl
  | some item => exact h item rfl

end Item

/-! ## What effects yield -/

namespace Effect

/-- After the closing of a context an effect yields results of some kind only, if any, and leaves the
context closed. -/
def Yields (c : ContextId) (P : α → Prop) (x : Effect ε α) : Prop :=
  ∀ E : Engine, E.Sound → ∀ w, Spent c w → Spent c (x E w).2 ∧ ∀ a, (x E w).1 = .ok a → P a

variable {x : Effect ε α} {f : α → Effect ε β}

/-- Foreign code and whatever else moves the session leave a closed context closed. -/
theorem Yields.of_headway
    (hx : ∀ {E : Engine}, E.Sound → ∀ F w, .context c ∈ F → Headway F w F (x E w).2)
    (h : ∀ a, P a) : x.Yields c P := by
  rintro E hE w ⟨F, hF, hs, hc⟩
  obtain ⟨hs', hlater⟩ := (hx hE F w hF).moves.sound_later hs
  exact ⟨⟨F, hF, hs', hlater.closed c hc⟩, fun a _ => h a⟩

theorem Yields.of_neutral (hx : x.Neutral [.context c]) (h : ∀ a, P a) : x.Yields c P :=
  .of_headway (fun hE F w hF =>
    (hx _ hE F w fun _ hr => List.mem_singleton.1 hr ▸ hF).toHeadway) h

theorem Yields.never (hx : ∀ E w, Spent c w → ∃ s, x E w = (.error s, w)) : x.Yields c P := by
  intro E _ w hw
  obtain ⟨s, hs⟩ := hx E w hw
  rw [hs]
  exact ⟨hw, fun a ha => by cases ha⟩

theorem Yields.of_refused {roots : SessionError → Prop} {y : Operation α}
    (hy : ∀ w, (w.context c).custodian.closed = true → y.Senseless w ∨ y.Refused roots w) :
    y.Yields c P :=
  .never fun E w hw => by
    rcases hy w hw.closed with h | ⟨e, _, h⟩
    · exact ⟨_, h E⟩
    · exact ⟨_, h E⟩

theorem Yields.pure {a : α} (h : P a) : (Pure.pure a : Effect ε α).Yields c P :=
  fun _ _ _ hw => ⟨hw, fun _ ha => by cases ha; exact h⟩

theorem Yields.bind (hx : x.Yields c P) (hf : ∀ a, P a → (f a).Yields c Q) :
    (x >>= f).Yields c Q := by
  intro E hE w hw
  obtain ⟨hs, hp⟩ := hx E hE w hw
  rw [bind_eq]
  rcases hr : x E w with ⟨s | a, w'⟩
  · rw [hr] at hs
    exact ⟨hs, fun b hb => by cases hb⟩
  · rw [hr] at hs hp
    exact hf a (hp a rfl) E hE w' hs

theorem Yields.map {g : α → β} (hx : x.Yields c P) (h : ∀ a, P a → Q (g a)) :
    (g <$> x).Yields c Q :=
  Yields.bind (f := fun a => Pure.pure (g a)) hx fun a ha => Yields.pure (h a ha)

/-- What is done with the result of an effect that moves the session. -/
theorem Yields.bind_neutral (hx : x.Neutral [.context c]) (hf : ∀ a, (f a).Yields c Q) :
    (x >>= f).Yields c Q :=
  Yields.bind (.of_neutral (P := fun _ => True) hx fun _ => trivial) fun a _ => hf a

theorem Yields.map_neutral {g : α → β} (hx : x.Neutral [.context c]) (h : ∀ a, Q (g a)) :
    (g <$> x).Yields c Q :=
  Yields.map (.of_neutral (P := fun _ => True) hx fun _ => trivial) fun a _ => h a

/-- Where nothing is yielded, nothing follows. -/
theorem Yields.bind_nothing (hx : x.Yields c fun _ => False) : (x >>= f).Yields c Q :=
  Yields.bind hx fun _ h => h.elim

theorem Yields.map_nothing {g : α → β} (hx : x.Yields c fun _ => False) : (g <$> x).Yields c Q :=
  Yields.map hx fun _ h => h.elim

theorem Yields.located {y : Operation α} (site : String) (hy : y.Yields c P) :
    (y.located site).Yields c P := by
  intro E hE w hw
  obtain ⟨hs, hp⟩ := hy E hE w hw
  rw [Effect.located, Effect.handle, bind_eq, Effect.attempt]
  rcases hr : y E w with ⟨s | a, w'⟩
  · rw [hr] at hs
    cases s with
    | failed e => exact ⟨hs, fun a ha => by cases ha⟩
    | exhausted => exact ⟨hs, fun a ha => by cases ha⟩
    | senseless => exact ⟨hs, fun a ha => by cases ha⟩
  · rw [hr] at hs hp
    exact ⟨hs, fun b hb => by cases hb; exact hp a rfl⟩

theorem Yields.onStop {cleanup : World → World} (hx : x.Yields c P)
    (hc : ∀ w, Spent c w → Spent c (cleanup w)) : (x.onStop cleanup).Yields c P := by
  intro E hE w hw
  obtain ⟨hs, hp⟩ := hx E hE w hw
  rw [Effect.onStop]
  rcases hr : x E w with ⟨s | a, w'⟩
  · rw [hr] at hs
    exact ⟨hc w' hs, fun a ha => by cases ha⟩
  · rw [hr] at hs hp
    exact ⟨hs, hp⟩

end Effect

/-! ## Conversions -/

namespace ContextId

/-- The key of a type or of a symbol may still be computed, but no object gets a proxy any more. -/
theorem resolve_yields (k : ProxyKind) (v : Value) :
    (c.resolve k v).Yields c fun _ => False := by
  cases v with
  | object r =>
    rw [resolve_object]
    have hkey : (c.identityKey k r).Yields c fun _ => True :=
      .of_headway (fun hE F _ _ => identityKey_headway hE k r F) fun _ => trivial
    refine Yields.bind hkey fun key _ => .never fun E w hw => ?_
    obtain ⟨F, hF, hs, hc⟩ := hw
    have hn : ((w.context c).identities k).get? key = none := by
      rw [IdentityMap.get?, (hs.ended c hc).entries k]
      rfl
    exact ⟨_, settle_of_closed E hn hc⟩
  | _ => exact .never fun E w _ => ⟨_, resolve_of_ne_object (by simp)⟩

end ContextId

namespace Conversion

variable {convert : Conversion α}

theorem required_yields (hc : ∀ v, (convert v).Yields c P) (v : Value) :
    (convert.required v).Yields c P := by
  unfold required
  split
  · exact .never fun _ _ _ => ⟨_, rfl⟩
  · exact hc v

theorem nullable_yields (hc : ∀ v, (convert v).Yields c P) (v : Value) :
    (convert.nullable v).Yields c fun o => ∀ a, o = some a → P a := by
  unfold nullable
  split
  · exact .pure fun a ha => by cases ha
  · exact (hc v).map fun a ha b hb => by cases hb; exact ha

theorem elements_yields {drop : α → World → World} (hc : ∀ v, (convert v).Yields c P)
    (hd : ∀ a, P a → ∀ w, drop a w = w) (r : ObjectRef) (count i : Nat) :
    (elements c drop convert r count i).Yields c fun as => ∀ a ∈ as, P a := by
  induction count generalizing i with
  | zero => exact .pure fun a ha => absurd ha List.not_mem_nil
  | succ count ih =>
    refine Yields.bind (Yields.located _ (Yields.bind_neutral (c.element_nonRetaining r i).neutral
      (required_yields hc))) fun a ha => Yields.bind (Yields.onStop (ih (i + 1)) fun w hw => ?_)
        fun rest hrest => Yields.pure (List.forall_mem_cons.2 ⟨ha, hrest⟩)
    rw [hd a ha]
    exact hw

theorem listOf_yields {drop : α → World → World} (hc : ∀ v, (convert v).Yields c P)
    (hd : ∀ a, P a → ∀ w, drop a w = w) (v : Value) :
    (listOf c drop convert v).Yields c fun as => ∀ a ∈ as, P a :=
  Yields.bind_neutral (toArray_foreignActs v).neutral fun _ => elements_yields hc hd _ _ 0

theorem toNodeList_yields (v : Value) : (toNodeList c v).Yields c fun _ => False := by
  refine Yields.bind_neutral (toArray_foreignActs v).neutral fun _ => Yields.bind_nothing ?_
  exact .of_refused fun w hc => .inr (ContextId.retain_refused hc v)

end Conversion

namespace ContextId

variable {convert : Conversion α}

theorem read_yields (hc : ∀ v, (convert v).Yields c P) (r : ObjectRef) (name : String) :
    (c.read r name convert).Yields c P :=
  Yields.located name (Yields.bind_neutral (c.property_nonRetaining r name).neutral
    (Conversion.required_yields hc))

theorem readNullable_yields (hc : ∀ v, (convert v).Yields c P) (r : ObjectRef) (name : String) :
    (c.readNullable r name convert).Yields c fun o => ∀ a, o = some a → P a :=
  Yields.located name (Yields.bind_neutral (c.property_nonRetaining r name).neutral
    (Conversion.nullable_yields hc))

theorem call_yields (hc : ∀ v, (convert v).Yields c P) (r : ObjectRef) (method : String)
    (arguments : List Value) : (c.call r method arguments convert).Yields c P :=
  Yields.located method (Yields.bind_neutral (c.callMethod_nonRetaining r method arguments).neutral
    (Conversion.required_yields hc))

theorem callNullable_yields (hc : ∀ v, (convert v).Yields c P) (r : ObjectRef) (method : String)
    (arguments : List Value) :
    (c.callNullable r method arguments convert).Yields c fun o => ∀ a, o = some a → P a :=
  Yields.located method (Yields.bind_neutral (c.callMethod_nonRetaining r method arguments).neutral
    (Conversion.nullable_yields hc))

end ContextId

mutual

/-- A described conversion in a closed context makes items that refer to nothing. -/
theorem Conv.convert_bare : (conv : Conv) → (v : Value) →
    (conv.convert c v).Yields c fun item => item.isBare = true
  | .text, v => by
    unfold Conv.convert
    exact .map_neutral (Conversion.toText_nonRetaining c v).neutral fun _ => rfl
  | .bool, v => by
    unfold Conv.convert
    exact .map_neutral (Conversion.toBool_foreignActs v).neutral fun _ => rfl
  | .int32, v => by
    unfold Conv.convert
    exact .map_neutral (Conversion.toInt32_foreignActs v).neutral fun _ => rfl
  | .int64, v => by
    unfold Conv.convert
    exact .map_neutral (Conversion.toInt64_foreignActs v).neutral fun _ => rfl
  | .number, v => by
    unfold Conv.convert
    exact .map_neutral (Conversion.toNumber_foreignActs v).neutral fun _ => rfl
  | .object, v => by
    unfold Conv.convert
    exact .map_neutral (Conversion.toObject_foreignActs v).neutral fun _ => rfl
  | .syntaxKind, v => by
    unfold Conv.convert
    exact .map_neutral (Conversion.toSyntaxKind_nonRetaining c v).neutral fun _ => rfl
  | .scriptKind, v => by
    unfold Conv.convert
    exact .map_neutral (Conversion.toScriptKind_foreignActs v).neutral fun _ => rfl
  | .signatureKind, v => by
    unfold Conv.convert
    exact .map_neutral (Conversion.toSignatureKind_foreignActs v).neutral fun _ => rfl
  | .nodeList, v => by
    unfold Conv.convert
    exact .map_nothing (Conversion.toNodeList_yields v)
  | .proxy k, v => by
    unfold Conv.convert
    exact .map_nothing (ContextId.resolve_yields k v)
  | .sourceFile, v => by
    unfold Conv.convert
    exact .bind_nothing (ContextId.resolve_yields .node v)
  | .view _, v => by
    unfold Conv.convert
    exact .bind_nothing (ContextId.resolve_yields .type v)
  | .list of, v => by
    unfold Conv.convert
    exact .map (Conversion.listOf_yields of.convert_bare (fun _ => Item.drop_of_bare) v)
      fun _ => Item.allBare_of_forall
  | .build fields, v => by
    unfold Conv.convert
    exact .bind_neutral (Conversion.toObject_foreignActs v).neutral fun r =>
      .map (fields.read_bare r) fun _ => Item.allBare_of_forall

theorem ConvFields.read_bare (r : ObjectRef) : (fields : ConvFields) →
    (fields.read c r).Yields c fun items => ∀ item ∈ items, item.isBare = true
  | .nil => by
    unfold ConvFields.read
    exact .pure fun a ha => absurd ha List.not_mem_nil
  | .field name nullable of rest => by
    unfold ConvFields.read
    have hrest (item : Item) (hitem : item.isBare = true) :
        ((rest.read c r).onStop (World.drop item) >>= fun items =>
          (pure (item :: items) : Operation (List Item))).Yields c
            fun items => ∀ item ∈ items, item.isBare = true := by
      refine Yields.bind (Yields.onStop (rest.read_bare r) fun w hw => ?_)
        fun items hitems => Yields.pure (List.forall_mem_cons.2 ⟨hitem, hitems⟩)
      rw [Item.drop_of_bare hitem]
      exact hw
    split
    · exact .bind (.map (ContextId.readNullable_yields of.convert_bare r name)
        fun _ => Item.option_id_bare) hrest
    · exact .bind (ContextId.read_yields of.convert_bare r name) hrest

end

theorem Conv.apply_bare (conv : Conv) (mode : ConvMode) (v : Value) :
    (conv.apply c mode v).Yields c fun item => item.isBare = true := by
  cases mode with
  | required => exact Conversion.required_yields conv.convert_bare v
  | nullable =>
    exact .map (Conversion.nullable_yields conv.convert_bare v) fun _ => Item.option_id_bare
  | unchecked => exact conv.convert_bare v

/-! ## Queries -/

/-- What is at hand of a list is its length, and the failures of a walk through it. -/
theorem Query.onNodeList_bare {w : World} {l : ListId} {a : Item} {E : Engine} {q : Query}
    (hc : (w.context (w.list l).context).custodian.closed = true)
    (hq : q.isAtHand w.toHoldings (.nodeList l) = true)
    (hr : (onNodeList (w.list l) q E w).1 = .ok a) : a.isBare = true := by
  cases q with
  | size | isEmpty =>
    cases hr
    rfl
  | element i =>
    have hi : (w.list l).length ≤ i := of_decide_eq_true hq
    change ((Item.option Item.proxy <$> (w.list l).element? i : Operation Item) E w).1 = _ at hr
    rw [NodeList.element?, if_pos hi] at hr
    cases hr
    rfl
  | iterate =>
    obtain ⟨es, _, _, hrun⟩ := iterate_refused hc
    change (((w.list l).iterate >>= fun results => pure (.list (results.map _)) :
      Operation Item) E w).1 = _ at hr
    rw [bind_eq, hrun E] at hr
    cases hr
    refine Item.allBare_of_forall fun item hitem => ?_
    rw [List.map_map, List.mem_map] at hitem
    obtain ⟨e, _, rfl⟩ := hitem
    rfl
  | toList =>
    have hl : (w.list l).length = 0 := by simpa [isAtHand] using hq
    change ((Item.proxies <$> (w.list l).toList : Operation Item) E w).1 = _ at hr
    rw [NodeList.toList, hl] at hr
    cases hr
    rfl
  | _ => cases hq

/-- A query to something of a closed context hands out nothing, unless it is a getter. -/
theorem Query.answer_bare {w : World} {item a : Item} {E : Engine}
    (hhome : item.home? w.toHoldings = some c) (hc : (w.context c).custodian.closed = true)
    (hs : ∀ s, item = .scanner s → (w.scanner s).custodian.closed = true) {q : Query}
    (hg : q.isGetter = false) (hr : (q.answer item E w).1 = .ok a) : a.isBare = true := by
  cases hq : q.isAtHand w.toHoldings item with
  | false =>
    rcases answer_barred hhome hc hs q hq with h | ⟨e, _, h⟩
    · rw [h w E] at hr
      cases hr
    · rw [h E] at hr
      cases hr
  | true =>
    cases item with
    | @proxy k p =>
      cases q with
      | id => cases k <;> (cases hr; rfl)
      | _ => cases hq
    | sourceFile f =>
      cases q with
      | node | intoNode => cases hg
      | _ => cases hq
    | view t =>
      cases q with
      | type | objectType => cases hg
      | _ => cases hq
    | nodeList l =>
      cases Item.list_home hhome
      exact onNodeList_bare hc hq hr
    | scanner s =>
      cases q with
      | text | isClosed =>
        cases hr
        rfl
      | _ => cases hq
    | _ => cases hhome

/-! ## Commands -/

namespace Command

/-- Whether a command runs in the context that it names. -/
def isOfContext : Command → Bool
  | .close | .isClosed | .program | .sourceFiles | .sourceFile _ | .scanner _ | .identityRules
  | .kinds | .state | .get _ _ | .read _ _ _ _ | .invoke _ _ _ | .call _ _ _ _ _ | .convert _ _ _
  | .resolve _ _ | .toForeign _ | .hostFunction _ | .checker _ => true
  | _ => false

theorem inContext_yields {F : Multiset Reference} {w : World} {E : Engine} {context : String}
    {x : ContextId → Operation Item} {P : Item → Prop} (hE : E.Sound) (hs : w.Sound F)
    (hl : w.lookup context = some (.context c)) (hc : (w.context c).custodian.closed = true)
    (hx : (x c).Yields c P) {item : Item} (hr : (inContext context x E w).1 = .ok item) :
    P item := by
  have hm : Moves F w (([.context c] : List Reference) + F) (World.holdContext c w) :=
    (Progress.hold (World.lookup_references hl)).moves
  obtain ⟨hs', hlater⟩ := hm.sound_later hs
  have hspent : Spent c (World.holdContext c w) :=
    ⟨_, Multiset.mem_add.2 (.inl (Multiset.mem_singleton_self _)), hs', hlater.closed c hc⟩
  have hrun : (inContext context x E w).1 = (x c E (World.holdContext c w)).1 := by
    rw [inContext, withItem, namedItem_bind, hl]
    rfl
  exact (hx E hE _ hspent).2 item (hrun ▸ hr)

theorem yields_bare {item : Item} (h : item.isBare = true) :
    (pure item : Operation Item).Yields c fun item => item.isBare = true :=
  Yields.pure (P := fun item : Item => item.isBare = true) h

/-- A command that runs in a closed context hands out nothing that refers to something. -/
theorem run_bare {F : Multiset Reference} {w : World} {E : Engine} {context : String}
    (hE : E.Sound) (hs : w.Sound F) (hl : w.lookup context = some (.context c))
    (hc : (w.context c).custodian.closed = true) {command : Command}
    (ho : command.isOfContext = true) (label : Option String) {item : Item}
    (hr : (command.run context label E w).1 = .ok item) : item.isBare = true := by
  have hin {x : ContextId → Operation Item} (hr : (inContext context x E w).1 = .ok item)
      (hx : (x c).Yields c fun item => item.isBare = true) : item.isBare = true :=
    inContext_yields hE hs hl hc hx hr
  cases command with
  | close => exact hin hr (.bind_neutral c.close_neutral fun _ => yields_bare rfl)
  | isClosed => exact hin hr (.bind_neutral Neutral.world fun w => yields_bare rfl)
  | program => exact hin hr (.map_neutral c.program_neutral fun _ => rfl)
  | sourceFiles =>
    exact hin hr (.map_nothing (.of_refused fun w hc => .inr (ContextId.sourceFiles_refused hc)))
  | sourceFile name =>
    exact hin hr
      (.map_nothing (.of_refused fun w hc => .inr (ContextId.sourceFile_refused hc name)))
  | scanner text =>
    exact hin hr (.map_nothing (.of_refused fun w hc => .inr (ContextId.scanner_refused hc text)))
  | identityRules => exact hin hr (.bind_neutral Neutral.world fun w => yields_bare rfl)
  | kinds => exact hin hr (.bind_neutral Neutral.world fun w => yields_bare rfl)
  | state => exact hin hr (.bind_neutral Neutral.world fun w => yields_bare rfl)
  | get on name =>
    exact hin hr (.bind_neutral on.object_neutral fun r =>
      .map_neutral (c.get_nonRetaining r name).neutral fun _ => rfl)
  | read on name conv nullable =>
    refine hin hr (.bind_neutral on.object_neutral fun r => ?_)
    split
    · exact .map (ContextId.readNullable_yields conv.convert_bare r name) fun _ =>
        Item.option_id_bare
    · exact ContextId.read_yields conv.convert_bare r name
  | invoke on method arguments =>
    exact hin hr (.bind_neutral on.object_neutral fun r =>
      .bind_neutral (Argument.values_neutral arguments) fun vs =>
        .map_neutral (c.invoke_nonRetaining r method vs).neutral fun _ => rfl)
  | call on method arguments conv nullable =>
    refine hin hr (.bind_neutral on.object_neutral fun r =>
      .bind_neutral (Argument.values_neutral arguments) fun vs => ?_)
    split
    · exact .map (ContextId.callNullable_yields conv.convert_bare r method vs) fun _ =>
        Item.option_id_bare
    · exact ContextId.call_yields conv.convert_bare r method vs
  | convert value conv mode =>
    exact hin hr (.bind_neutral value.value_neutral fun v => conv.apply_bare mode v)
  | resolve kind value =>
    exact hin hr (.bind_neutral value.value_neutral fun v =>
      .map_nothing (ContextId.resolve_yields kind v))
  | toForeign value => exact hin hr (yields_bare rfl)
  | hostFunction body =>
    exact hin hr (.bind_neutral (c.newHostFunction_neutral nofun) fun r =>
      .bind_neutral (setLabel_foreignActs r label).neutral fun _ => yields_bare rfl)
  | checker q => exact hin hr (.of_refused fun w hc => q.answer_refused hc)
  | _ => cases ho

end Command

end ProxySession
