import ProxySession.Proofs.Queries
import ProxySession.Session.Run

/-!
# Commands as progress

The caller of a command owns its answer. A conversion that is described by data owns what the
conversion does that it stands for.
-/

namespace ProxySession

open Effect

variable {kept : List Reference} {α : Type}

/-! ## Conversions as data -/

theorem Item.owned_drop (item : Item) (w : World) (F : Multiset Reference) :
    Progress (item.owned + F) w F (World.drop item w) := Progress.drop item w F

theorem Item.owned_option (o : Option Item) : o.elim 0 Item.owned = (Item.option id o).owned := by
  cases o <;> rfl

theorem Item.owned_list (items : List Item) :
    (Item.list items).owned = Conversion.givenAll Item.owned items := by
  induction items with
  | nil => rfl
  | cons item rest ih =>
    rw [Conversion.givenAll_cons, ← ih]
    simp only [Item.owned, Item.references, Item.allReferences, Multiset.coe_add]

mutual

theorem Conv.convert_answers {c : ContextId} (hc : .context c ∈ kept) :
    (conv : Conv) → (v : Value) → Answers kept (conv.convert c v)
  | .nodeList, v => by
    unfold Conv.convert
    exact Gives.map (Conversion.toNodeList_gives hc v) fun _ => rfl
  | .list of, v => by
    unfold Conv.convert
    exact Gives.map
      (Conversion.listOf_gives (of.convert_answers hc) Item.owned_drop v)
      fun items => (Item.owned_list items).symm
  | .build fields, v => by
    unfold Conv.convert
    exact Gives.bind (Conversion.toObject_foreignActs v).neutral fun r =>
      Gives.map (fields.read_gives hc r) fun items => (Item.owned_list items).symm
  | .text, v | .bool, v | .int32, v | .int64, v | .number, v | .object, v => by
    unfold Conv.convert
    grind
  | .syntaxKind, v | .scriptKind, v | .signatureKind, v => by
    unfold Conv.convert
    grind
  | .proxy k, v | .sourceFile, v | .view _, v => by
    unfold Conv.convert
    grind

theorem ConvFields.read_gives {c : ContextId} (hc : .context c ∈ kept) (r : ObjectRef) :
    (fields : ConvFields) → (fields.read c r).Gives kept (Conversion.givenAll Item.owned)
  | .nil => by
    unfold ConvFields.read
    exact Gives.pure rfl
  | .field name nullable of rest => by
    unfold ConvFields.read
    have hrest (item : Item) (items : List Item) :
        (pure (item :: items) : Operation (List Item)).Transfers kept
          (item.owned + Conversion.givenAll Item.owned items) (Conversion.givenAll Item.owned) := by
      rw [← Conversion.givenAll_cons]
      exact Transfers.pure (item :: items)
    split
    · exact Gives.bind_onStop
        (Gives.map (c.readNullable_gives (of.convert_answers hc) r name) Item.owned_option)
        (fun _ => rest.read_gives hc r) Item.owned_drop hrest
    · exact Gives.bind_onStop (c.read_gives (of.convert_answers hc) r name)
        (fun _ => rest.read_gives hc r) Item.owned_drop hrest

end

theorem Conv.apply_answers {c : ContextId} (hc : .context c ∈ kept) (conv : Conv) (mode : ConvMode)
    (v : Value) : Answers kept (conv.apply c mode v) := by
  cases mode with
  | required => exact Conversion.required_gives (conv.convert_answers hc) v
  | nullable =>
    exact Gives.map (Conversion.nullable_gives (conv.convert_answers hc) v) Item.owned_option
  | unchecked => exact conv.convert_answers hc v

/-! ## Arguments and variables -/

@[grind ←] theorem Argument.value_neutral (a : Argument) : a.value?.Neutral kept := by
  unfold value?
  grind

@[grind ←] theorem Argument.values_neutral (as : List Argument) :
    (Argument.values as).Neutral kept := by
  unfold values
  grind

@[grind ←] theorem Argument.object_neutral (a : Argument) : a.object.Neutral kept := by
  unfold object
  grind

/-- Reads a variable and goes on in the same world. -/
theorem namedItem_bind {β : Type} {name : String} {part : Item → Option α} {E : Engine} {w : World}
    {f : α → Operation β} : (namedItem name part >>= f) E w =
      match (w.lookup name).bind part with
      | some a => f a E w
      | none => (.error .senseless, w) := by
  simp only [namedItem, bind_eq, world]
  cases (w.lookup name).bind part <;> rfl

theorem withItem_answers {name : String} {x : Item → Operation Item}
    (hx : ∀ item, Answers (item.references ++ kept) (x item)) : Answers kept (withItem name x) := by
  intro w E hE F hF
  rw [withItem, namedItem_bind]
  cases h : w.lookup name with
  | none => exact Progress.refl
  | some item =>
    have ht : (change (World.hold item) : Operation Unit).TransfersAt w kept 0
        fun _ => item.references := by
      intro E _ F _
      rw [zero_add]
      exact Progress.hold (World.lookup_references h)
    exact ht.bind (fun _ => Gives.eventually _ (hx item) fun w F => Progress.drop item w F) E hE F hF

@[grind ←] theorem inContext_answers {name : String} {x : ContextId → Operation Item}
    (hx : ∀ c, Answers (.context c :: kept) (x c)) : Answers kept (inContext name x) := by
  refine withItem_answers fun item => ?_
  cases item with
  | context c => exact hx c
  | _ => exact Answers.senseless

/-! ## Identity maps and custodians of their own -/

theorem MapLens.intern_neutral (i : Nat) (key : Int64) {create : Operation String}
    (hc : create.Neutral kept) : ((MapLens.ofIndex i).intern key create).Neutral kept := by
  have hlog (message : String) :
      (change ((MapLens.ofIndex i).logLookup message key) : Operation Unit).Neutral kept :=
    Neutral.change fun _ => ⟨rfl, rfl, rfl, .refl _, (World.Tacit.log rfl _).warnings, rfl, List.prefix_rfl,
      .of_same rfl rfl rfl⟩
  refine Neutral.bind Neutral.world fun w => ?_
  split
  · exact Neutral.bind (hlog _) fun _ => Neutral.pure _
  · exact Neutral.bind hc fun made => Neutral.bind (hlog _) fun _ =>
      Neutral.act fun w => .apart w ..

mutual

theorem Lookup.run_neutral (i : Nat) : (l : Lookup) → (l.run (.ofIndex i)).Neutral kept
  | .mk key before outcome => by
    unfold Lookup.run
    exact MapLens.intern_neutral i key (Neutral.bind (Eval.cross_foreign fun _ => .create key).neutral
      fun _ => Neutral.bind (Lookup.runAll_neutral i before) fun _ => Neutral.ofExcept outcome)

theorem Lookup.runAll_neutral (i : Nat) :
    (ls : List Lookup) → (Lookup.runAll (.ofIndex i) ls).Neutral kept
  | [] => by
    unfold Lookup.runAll
    exact Neutral.pure ()
  | l :: rest => by
    unfold Lookup.runAll
    exact Neutral.bind (l.run_neutral i) fun _ => Lookup.runAll_neutral i rest

end

attribute [grind ←] Lookup.run_neutral

theorem MapCommand.run_answers (i : Nat) (command : MapCommand) :
    Answers kept (command.run i) := by
  unfold run
  grind

theorem World.closeResource_tacit (r : ResourceId) : StaysTacit (closeResource r) := by
  unfold closeResource
  refine StaysTacit.get.bind fun w => ?_
  split
  · next resource _ =>
    refine StaysTacit.bind (fun w => .cross w _) fun _ => ?_
    cases resource.failure <;> exact .pure _
  · exact .pure _

theorem World.closeResource_becomes (r : ResourceId) (w : World) :
    w.Becomes (closeResource r w).2 w.toHoldings := by
  simp only [closeResource, bind_apply, get_apply]
  cases w.resources[r.index]? with
  | none => exact .refl w
  | some resource =>
    cases hf : resource.failure <;> simp only [hf, bind_apply] <;> exact ⟨rfl, rfl⟩

namespace CustodianCommand

theorem setCustodian_neutral (i : Nat) (custodian : Custodian ResourceId) :
    (change fun w => w.setCustodian i custodian : Operation Unit).Neutral kept :=
  Neutral.change fun w => .apart w ..

@[grind ←] theorem update_neutral (i : Nat)
    (f : Custodian ResourceId → Except LifetimeError (α × Custodian ResourceId)) :
    (update i f).Neutral kept := by
  refine Neutral.bind Neutral.world fun w => ?_
  split
  · exact Neutral.bind (setCustodian_neutral i _) fun _ => Neutral.pure _
  · exact Neutral.fail _

theorem closeCustodian_neutral (custodian : Custodian ResourceId) :
    (act (World.closeCustodian custodian World.closeResource) :
      Operation (Except LifetimeError (Custodian ResourceId))).Neutral kept := by
  refine Neutral.act fun w => ?_
  have ht := World.closeCustodian_tacit custodian World.closeResource_tacit w
  cases h : custodian.closed with
  | true =>
    rw [World.closeCustodian_of_closed h]
    exact .apart _ ..
  | false =>
    have hc := (World.closeCustodian_of_open h (f := fun _ h => h)
      World.closeResource_becomes w).2
    rw [List.foldl_fixed] at hc
    exact World.Turns.rests ⟨hc, ht⟩

theorem run_answers (i : Nat) (command : CustodianCommand) : Answers kept (command.run i) := by
  cases command with
  | close =>
    refine Answers.bind Neutral.world fun w => Answers.bind (closeCustodian_neutral _) fun r => ?_
    split
    · exact Answers.bind (setCustodian_neutral i _) fun _ => Answers.plain Item.plain_nothing
    · exact Answers.fail _
  | track label failure finished =>
    exact Answers.bind Neutral.world fun w => Answers.bind (update_neutral i _) fun _ =>
      Answers.bind (Neutral.change fun w => .apart w ..) fun _ =>
        Answers.plain Item.plain_nothing
  | _ =>
    unfold run
    grind

end CustodianCommand

/-! ## Commands -/

theorem Item.plain_settingsReport {read : Document → Option α} {shown : α → Shown}
    {debug : α → String} (text : String) : (settingsReport read shown debug text).Plain :=
  Item.plain_report _

theorem cloned_answers (name : String) :
    Answers kept (namedItem name some >>= fun item =>
      change (World.hold item) >>= fun _ => pure item) := by
  intro w E _ F _
  rw [namedItem_bind]
  cases h : w.lookup name with
  | none => exact Progress.refl
  | some item =>
    rw [zero_add]
    exact Progress.hold (World.lookup_references h)

theorem finish_neutral (resource : String) :
    (change (World.finish resource) : Operation Unit).Neutral kept := by
  refine Neutral.change fun w => ?_
  unfold World.finish
  split
  · exact .apart _ ..
  · exact .apart _ ..

/-- Foreign code sees a label only in what is shown. -/
theorem setLabel_foreignActs (r : ObjectRef) (label : Option String) :
    (Eval.changeHeap fun heap => heap.update r fun o => { o with label } : Operation Unit).ForeignActs :=
  Eval.changeObject_foreignActs r fun o => .same o.kind

/-- The caller owns the answer of a command. -/
theorem Command.run_answers (context : String) (label : Option String) (command : Command) :
    Answers kept (command.run context label) := by
  cases command with
  | «open» parse rules =>
    exact Gives.bind parse.object_neutral fun r =>
      Gives.map (ContextId.open_gives r rules) fun _ => rfl
  | scanner text =>
    exact inContext_answers fun c =>
      Gives.map (c.scanner_gives List.mem_cons_self text) fun _ => rfl
  | read on name conv nullable =>
    refine inContext_answers fun c => Gives.bind on.object_neutral fun r => ?_
    have hconv (v : Value) : Answers (.context c :: kept) (conv.convert c v) :=
      conv.convert_answers List.mem_cons_self v
    split
    · exact Gives.map (c.readNullable_gives hconv r name) Item.owned_option
    · exact c.read_gives hconv r name
  | call on method arguments conv nullable =>
    refine inContext_answers fun c => Gives.bind on.object_neutral fun r =>
      Gives.bind (Argument.values_neutral arguments) fun vs => ?_
    have hconv (v : Value) : Answers (.context c :: kept) (conv.convert c v) :=
      conv.convert_answers List.mem_cons_self v
    split
    · exact Gives.map (c.callNullable_gives hconv r method vs) Item.owned_option
    · exact c.call_gives hconv r method vs
  | convert value conv mode =>
    exact inContext_answers fun c => Gives.bind value.value_neutral fun v =>
      conv.apply_answers List.mem_cons_self mode v
  | hostFunction body =>
    exact inContext_answers fun c => Answers.bind (c.newHostFunction_neutral nofun) fun r =>
      Answers.bind (setLabel_foreignActs r label).neutral fun _ => Answers.plain (Item.plain_object r)
  | checker q =>
    exact inContext_answers fun c => q.answer_answers List.mem_cons_self
  | drop name =>
    refine Answers.bind (fun _ _ F w _ => Progress.removeVariable name w F) fun _ =>
      Answers.plain Item.plain_nothing
  | clone name => exact cloned_answers name
  | query on q => exact withItem_answers fun item => q.answer_answers item
  | table on q =>
    exact Answers.bind (namedItem_neutral on _) fun t => Answers.plain (q.answer_plain t)
  | newMap kind => exact Answers.act (fun w => .apart w ..) fun _ => Item.plain_identityMap _
  | newCustodian name => exact Answers.act (fun w => .apart w ..) fun _ => Item.plain_custodian _
  | identityMap on command =>
    exact Answers.bind (namedItem_neutral on _) fun i => command.run_answers i
  | custodian on command =>
    exact Answers.bind (namedItem_neutral on _) fun i => command.run_answers i
  | finish resource =>
    exact Answers.bind (finish_neutral resource) fun _ => Answers.plain Item.plain_nothing
  | readRuntimeLimits _ | readIdentityRules _ => exact Answers.plain (Item.plain_settingsReport _)
  | _ =>
    unfold run
    grind

end ProxySession
