import ProxySession.Proofs.AddedSlots
import ProxySession.Proofs.TypeAccessors

/-!
# Conversions on account

A conversion hands out no more handles than the lists in its result. It is made of steps that each add to
what the context gained, and where one of them stops, the lists that were made before it are given up again.
So an effect is `Accounted` if its result holds the lists that it made, and nothing is held if it stops.
-/

namespace ProxySession

open Effect

/-! ## Balances -/

/-- From one world to another some lists were handed out, or none because of a stop. What is `plain` leaves
the context alone. All this is said unless a crossing of some sort is recorded. -/
structure World.Balances (p : Crossing → Bool) (c : ContextId) (plain : Prop) (w : World)
    (handed : Option (List ListId)) (w' : World) : Prop where
  tally : w.tally p ≤ w'.tally p
  made : (w.context c).Ready → w'.tally p = w.tally p →
    (handed = none → (w'.context c).custodian.slots.size ≤ 2 ^ 32) →
      Holdings.Made c w.toHoldings w'.toHoldings (handed.getD [])
  keepsContext : plain → w'.tally p = w.tally p →
    w.toHoldings.KeepsContext c w'.toHoldings ∧ handed.getD [] = []

namespace World.Balances

variable {p : Crossing → Bool} {c : ContextId} {plain plain' : Prop} {w w' w'' w₃ : World}
  {handed : Option (List ListId)} {ls : List ListId}

theorem of_keepsUnless (h : w.KeepsUnless p c w') (hn : handed.getD [] = []) :
    w.Balances p c plain handed w' where
  tally := h.tally
  made _ he _ := by
    rw [hn]
    exact .of_keepsContext (h.keepsContext he)
  keepsContext _ he := ⟨h.keepsContext he, hn⟩

theorem mono (hp : plain' → plain) (h : w.Balances p c plain handed w') :
    w.Balances p c plain' handed w' :=
  ⟨h.tally, h.made, fun hplain => h.keepsContext (hp hplain)⟩

theorem trans {ls' : List ListId} (h₁ : w.Balances p c plain (some ls) w')
    (h₂ : w'.Balances p c plain (some ls') w'') : w.Balances p c plain (some (ls ++ ls')) w'' where
  tally := Nat.le_trans h₁.tally h₂.tally
  made hr he _ := by
    have ht₁ := h₁.tally
    have ht₂ := h₂.tally
    have hm := h₁.made hr (by omega) (by simp)
    exact hm.trans (h₂.made (hm.ready hr) (by omega) (by simp))
  keepsContext hp he := by
    have ht₁ := h₁.tally
    have ht₂ := h₂.tally
    obtain ⟨hs₁, hls₁⟩ := h₁.keepsContext hp (by omega)
    obtain ⟨hs₂, hls₂⟩ := h₂.keepsContext hp (by omega)
    rw [Option.getD_some] at hls₁ hls₂
    exact ⟨hs₁.trans hs₂, by rw [Option.getD_some, hls₁, hls₂]; rfl⟩

/-- What was handed out before a stop is given up again. -/
theorem stop (h₁ : w.Balances p c plain (some ls) w') (h₂ : w'.Balances p c plain none w'')
    (hw : w₃.toHoldings = w''.toHoldings.giveLists ls)
    (hr : w''.crossings.toList <+: w₃.crossings.toList) : w.Balances p c plain none w₃ := by
  have ht₁ := h₁.tally
  have ht₂ := h₂.tally
  have ht₃ := tally_le (p := p) hr
  refine ⟨by omega, fun hready he hb => ?_, fun hp he => ?_⟩
  · have hsize : (w''.context c).custodian.slots.size ≤ 2 ^ 32 := by
      rw [← Holdings.giveLists_slots_size ls, ← hw]
      exact hb rfl
    have hm₁ := h₁.made hready (by omega) (by simp)
    have hm₂ := h₂.made (hm₁.ready hready) (by omega) fun _ => hsize
    -- The stop itself handed out nothing, so the lists from before it are all that there is to give up.
    rw [hw]
    exact (hm₁.trans hm₂).giveLists hready hsize
  · obtain ⟨hs₁, hls⟩ := h₁.keepsContext hp (by omega)
    obtain ⟨hs₂, hnone⟩ := h₂.keepsContext hp (by omega)
    rw [Option.getD_some] at hls
    rw [hw, hls]
    exact ⟨hs₁.trans hs₂, hnone⟩

end World.Balances

/-- Lists that are given up one after the other. -/
theorem World.giveBack_lists (ls : List ListId) (w : World) :
    ((ls.map Reference.list).foldl (fun w r => giveBack r w) w).toHoldings =
        w.toHoldings.giveLists ls ∧
      w.crossings.toList <+:
        ((ls.map Reference.list).foldl (fun w r => giveBack r w) w).crossings.toList := by
  induction ls generalizing w with
  | nil => exact ⟨rfl, List.prefix_rfl⟩
  | cons l rest ih =>
    obtain ⟨hholdings, hrecord⟩ := ih (giveBack (.list l) w)
    refine ⟨?_, (giveBack_indoors (.list l) w).record.trans hrecord⟩
    rw [(giveBack_becomes (.list l) w).holdings] at hholdings
    exact hholdings

/-! ## Accounted effects -/

namespace Effect

variable {ε α β γ δ : Type}

/-- How an effect ends. A result holds the lists that were handed out, and a stop hands out none. -/
inductive Ends (p : Crossing → Bool) (c : ContextId) (plain : Prop) (held : α → List Reference)
    (w : World) : Except (Stop ε) α × World → Prop
  | result {a w'} (ls : List ListId) (hheld : held a = ls.map .list)
    (hb : w.Balances p c plain (some ls) w') : Ends p c plain held w (.ok a, w')
  | stop {s w'} (hb : w.Balances p c plain none w') : Ends p c plain held w (.error s, w')

/-- An effect whose result holds the lists that it made, and that leaves no list when it stops. -/
def Accounted (p : Crossing → Bool) (c : ContextId) (plain : Prop) (held : α → List Reference)
    (x : Effect ε α) : Prop :=
  ∀ E : Engine, E.Obeys (World.KeepsUnless p c) → ∀ w, Ends p c plain held w (x E w)

variable {p : Crossing → Bool} {c : ContextId} {plain plain' : Prop} {w : World}
  {held : α → List Reference} {held' : β → List Reference} {x : Effect ε α} {f : α → Effect ε β}

theorem Ends.of_keepsUnless {r : Except (Stop ε) α × World} (h : w.KeepsUnless p c r.2) :
    Ends p c plain (fun _ => []) w r := by
  obtain ⟨s | a, w'⟩ := r
  · exact .stop (.of_keepsUnless h rfl)
  · exact .result [] rfl (.of_keepsUnless h rfl)

theorem Ends.still_stop (s : Stop ε) : Ends p c plain held w (.error s, w) :=
  .stop (.of_keepsUnless (.of_holdings List.prefix_rfl rfl) rfl)

namespace Accounted

theorem of_nonRetaining (hx : x.NonRetaining) : x.Accounted p c plain fun _ => [] := fun E hE w =>
  .of_keepsUnless (hx _ (World.KeepsUnless.contextRegime p c) E hE w)

theorem tally (hx : x.Accounted p c plain held) {E : Engine} (hE : E.Obeys (World.KeepsUnless p c))
    (w : World) : w.tally p ≤ (x E w).2.tally p := by
  have h := hx E hE w
  generalize x E w = r at h ⊢
  cases h with
  | result _ _ hb => exact hb.tally
  | stop hb => exact hb.tally

theorem mono (hp : plain' → plain) (hx : x.Accounted p c plain held) :
    x.Accounted p c plain' held := by
  intro E hE w
  have h := hx E hE w
  generalize x E w = r at h ⊢
  cases h with
  | result ls hheld hb => exact .result ls hheld (hb.mono hp)
  | stop hb => exact .stop (hb.mono hp)

theorem fail (e : ε) : (Effect.fail e : Effect ε α).Accounted p c plain held := fun _ _ _ =>
  .still_stop _

theorem pure {a : α} (h : held a = []) : (Pure.pure a : Effect ε α).Accounted p c plain held :=
  fun _ _ _ => .result [] h (.of_keepsUnless (.of_holdings List.prefix_rfl rfl) rfl)

theorem bind (hx : x.Accounted p c plain fun _ => [])
    (hf : ∀ a, (f a).Accounted p c plain held') : (x >>= f).Accounted p c plain held' := by
  intro E hE w
  have h := hx E hE w
  rw [bind_eq]
  generalize x E w = r at h ⊢
  cases h with
  | stop hb => exact .stop hb
  | @result a w' ls hheld hb =>
    obtain rfl := List.map_eq_nil_iff.1 hheld.symm
    have h' := hf a E hE w'
    change Ends p c plain held' w (f a E w')
    generalize f a E w' = r' at h' ⊢
    cases h' with
    | stop hb' => exact .stop (hb.stop hb' rfl List.prefix_rfl)
    | result ls' hheld' hb' => exact .result ls' hheld' (hb.trans hb')

theorem map {g : α → β} (hx : x.Accounted p c plain held) (hg : ∀ a, held a = held' (g a)) :
    (g <$> x).Accounted p c plain held' := by
  have hbind : g <$> x = x >>= fun a => Pure.pure (g a) := rfl
  intro E hE w
  have h := hx E hE w
  rw [hbind, bind_eq]
  generalize x E w = r at h ⊢
  cases h with
  | stop hb => exact .stop hb
  | @result a w' ls hheld hb => exact .result ls ((hg a).symm.trans hheld) hb

theorem located {y : Effect SessionError α} (site : String) (hy : y.Accounted p c plain held) :
    (y.located site).Accounted p c plain held := by
  intro E hE w
  have h := hy E hE w
  rw [Effect.located, handle, bind_eq, attempt]
  generalize y E w = r at h ⊢
  cases h with
  | @stop s w' hb => cases s <;> exact .stop hb
  | result ls hheld hb => exact .result ls hheld hb

/-- A result that is given up if what follows stops. -/
theorem bind_onStop {g : α → Effect ε β} {k : α → β → γ} {held'' : γ → List Reference}
    {drop : α → World → World} (hx : x.Accounted p c plain held)
    (hg : ∀ a, (g a).Accounted p c plain held')
    (hd : ∀ a w, drop a w = (held a).foldl (fun w r => World.giveBack r w) w)
    (hk : ∀ a b, held'' (k a b) = held a ++ held' b) :
    (x >>= fun a => (g a).onStop (drop a) >>= fun b => Pure.pure (k a b)).Accounted p c plain
      held'' := by
  intro E hE w
  have h := hx E hE w
  simp only [bind_eq, onStop]
  generalize x E w = r at h ⊢
  cases h with
  | stop hb => exact .stop hb
  | @result a w' ls hheld hb =>
    have h' := hg a E hE w'
    dsimp only
    generalize g a E w' = r' at h' ⊢
    cases h' with
    | @stop s w'' hb' =>
      obtain ⟨hholdings, hrecord⟩ := World.giveBack_lists ls w''
      dsimp only
      rw [hd, hheld]
      exact .stop (hb.stop hb' hholdings hrecord)
    | @result b w'' ls' hheld' hb' =>
      refine .result (ls ++ ls') ?_ (hb.trans hb')
      rw [hk, hheld, hheld', List.map_append]

end Accounted

end Effect

/-! ## Conversions -/

variable {p : Crossing → Bool} {c : ContextId} {plain : Prop} {α : Type} {held : α → List Reference}

namespace ContextId

theorem settled_keepsUnless (c : ContextId) (w : World) (i : Nat) (r : ObjectRef) :
    w.KeepsUnless p c ((w.numbered i r).settled c) :=
  .of_keepsContext List.prefix_rfl (.books c (fun _ => []) Context.lastTag w.toHoldings)

/-- The computation of a key leaves the context alone. -/
theorem identityKey_keepsUnless {E : Engine} (hE : E.Obeys (World.KeepsUnless p c)) (k : ProxyKind)
    (r : ObjectRef) (w : World) : w.KeepsUnless p c (c.identityKey k r E w).2 := by
  cases hk : (w.context c).rules.tokens k with
  | false =>
    obtain ⟨x, hx, hrun⟩ := identityKey_nonRetaining (c := c) r hk
    rw [hrun]
    exact hx _ (World.KeepsUnless.contextRegime p c) E hE w
  | true =>
    rw [identityKey_token r E hk]
    rcases keyBy_token (c := c) r E w with ⟨s, hs⟩ | ⟨v, i, _, _, hs⟩
    · rw [hs]
      exact .of_holdings List.prefix_rfl rfl
    · rw [hs]
      exact settled_keepsUnless c w i r

theorem identityKey_accounted (k : ProxyKind) (r : ObjectRef) :
    (c.identityKey k r).Accounted p c plain fun _ => [] := fun _ hE w =>
  .of_keepsUnless (identityKey_keepsUnless hE k r w)

/-- What a resolution retains is for a new entry. -/
theorem settle_accounted (k : ProxyKind) (r : ObjectRef) (key : Int64) :
    (c.settle k r key).Accounted p c False fun _ => [] := by
  intro E _ w
  obtain ⟨handle, w', _, hr, hw⟩ | ⟨_, _, hr⟩ | ⟨w', _, _, hr, hw⟩ := settle_cases c k r key E w <;> rw [hr]
  · refine .of_keepsUnless (.of_keepsContext hw.tacit.indoors.record ?_)
    rw [hw.holdings]
    exact .of_same rfl rfl
  · exact .still_stop _
  · refine .result [] rfl ⟨World.tally_le hw.tacit.indoors.record, fun hready _ _ => ?_, False.elim⟩
    rw [hw.holdings]
    exact .enroll hready k r key

theorem resolve_accounted (k : ProxyKind) (v : Value) :
    (c.resolve k v).Accounted p c False fun _ => [] := by
  cases v with
  | object r =>
    rw [resolve_object]
    exact .bind (identityKey_accounted k r) fun key => settle_accounted k r key
  | _ =>
    intro E _ w
    rw [resolve_of_ne_object (by simp)]
    exact .still_stop _

end ContextId

namespace Conversion

theorem toNodeList_accounted (v : Value) :
    (toNodeList c v).Accounted p c False fun l => [.list l] := by
  refine .bind (.of_nonRetaining (toArray_foreignActs v).nonRetaining) fun (_, length) => ?_
  intro E _ w
  cases ho : (w.context c).custodian.closed with
  | true =>
    simp only [bind_eq, c.retain_of_closed v E ho]
    exact .still_stop _
  | false =>
    obtain ⟨w', hr, hw⟩ := c.retain_of_open v E ho
    simp only [bind_eq, hr]
    have hl : w'.lists = w.lists := by
      rw [hw.holdings]
      rfl
    refine .result [⟨w'.lists.size⟩] rfl
      ⟨World.tally_le hw.tacit.indoors.record, fun hready _ _ => ?_, False.elim⟩
    have hm := Holdings.Made.convert hready v length
    rw [Holdings.convert, ← hw.holdings, ← hl] at hm
    exact hm

theorem required_accounted {convert : Conversion α}
    (hc : ∀ v, (convert v).Accounted p c plain held) (v : Value) :
    (convert.required v).Accounted p c plain held := by
  unfold required
  split
  · exact .fail _
  · exact hc v

theorem nullable_accounted {convert : Conversion α}
    (hc : ∀ v, (convert v).Accounted p c plain held) (v : Value) :
    (convert.nullable v).Accounted p c plain fun o => o.elim [] held := by
  unfold nullable
  split
  · exact .pure rfl
  · exact .map (hc v) fun _ => rfl

theorem elements_accounted {drop : α → World → World} {convert : Conversion α}
    (hc : ∀ v, (convert v).Accounted p c plain held)
    (hd : ∀ a w, drop a w = (held a).foldl (fun w r => World.giveBack r w) w) (r : ObjectRef)
    (count i : Nat) :
    (elements c drop convert r count i).Accounted p c plain fun as => as.flatMap held := by
  induction count generalizing i with
  | zero => exact .pure rfl
  | succ count ih =>
    refine .bind_onStop (.located _ ?_) (fun _ => ih (i + 1)) hd fun _ _ => List.flatMap_cons
    exact .bind (Accounted.of_nonRetaining (c.element_nonRetaining r i)) fun v => required_accounted hc v

theorem listOf_accounted {drop : α → World → World} {convert : Conversion α}
    (hc : ∀ v, (convert v).Accounted p c plain held)
    (hd : ∀ a w, drop a w = (held a).foldl (fun w r => World.giveBack r w) w) (v : Value) :
    (listOf c drop convert v).Accounted p c plain fun as => as.flatMap held :=
  .bind (Accounted.of_nonRetaining (toArray_foreignActs v).nonRetaining) fun _ => elements_accounted hc hd _ _ 0

end Conversion

namespace ContextId

theorem read_accounted {convert : Conversion α} (hc : ∀ v, (convert v).Accounted p c plain held)
    (r : ObjectRef) (name : String) : (c.read r name convert).Accounted p c plain held :=
  .located name (.bind (Accounted.of_nonRetaining (c.property_nonRetaining r name)) fun v =>
    Conversion.required_accounted hc v)

theorem readNullable_accounted {convert : Conversion α}
    (hc : ∀ v, (convert v).Accounted p c plain held) (r : ObjectRef) (name : String) :
    (c.readNullable r name convert).Accounted p c plain fun o => o.elim [] held :=
  .located name (.bind (Accounted.of_nonRetaining (c.property_nonRetaining r name)) fun v =>
    Conversion.nullable_accounted hc v)

end ContextId

/-! ## Described conversions -/

mutual

/-- A conversion that makes no proxy, be it for a view, and no node list. -/
def Conv.isPlain : Conv → Bool
  | .nodeList | .proxy _ | .sourceFile | .view _ => false
  | .list of => of.isPlain
  | .build fields => fields.isPlain
  | _ => true

def ConvFields.isPlain : ConvFields → Bool
  | .nil => true
  | .field _ _ of rest => of.isPlain && rest.isPlain

end

theorem Item.references_option (o : Option Item) :
    o.elim [] Item.references = (Item.option id o).references := by
  cases o <;> rfl

mutual

theorem Conv.convert_accounted (p : Crossing → Bool) (c : ContextId) : (conv : Conv) → (v : Value) →
    (conv.convert c v).Accounted p c (conv.isPlain = true) Item.references
  | .text, v => .map (Accounted.of_nonRetaining (Conversion.toText_nonRetaining c v)) fun _ => rfl
  | .bool, v => .map (Accounted.of_nonRetaining (Conversion.toBool_foreignActs v).nonRetaining) fun _ => rfl
  | .int32, v => .map (Accounted.of_nonRetaining (Conversion.toInt32_foreignActs v).nonRetaining) fun _ => rfl
  | .int64, v => .map (Accounted.of_nonRetaining (Conversion.toInt64_foreignActs v).nonRetaining) fun _ => rfl
  | .number, v => .map (Accounted.of_nonRetaining (Conversion.toNumber_foreignActs v).nonRetaining) fun _ => rfl
  | .object, v => .map (Accounted.of_nonRetaining (Conversion.toObject_foreignActs v).nonRetaining) fun _ => rfl
  | .nodeList, v =>
      .map ((Conversion.toNodeList_accounted v).mono (by simp [Conv.isPlain])) fun _ => rfl
  | .syntaxKind, v => .map (Accounted.of_nonRetaining (Conversion.toSyntaxKind_nonRetaining c v)) fun _ => rfl
  | .scriptKind, v =>
      .map (Accounted.of_nonRetaining (Conversion.toScriptKind_foreignActs v).nonRetaining) fun _ => rfl
  | .signatureKind, v =>
      .map (Accounted.of_nonRetaining (Conversion.toSignatureKind_foreignActs v).nonRetaining) fun _ => rfl
  | .proxy k, v => .map ((c.resolve_accounted k v).mono (by simp [Conv.isPlain])) fun _ => rfl
  | .sourceFile, v => .bind ((c.resolve_accounted .node v).mono (by simp [Conv.isPlain])) fun n =>
      .map (Accounted.of_nonRetaining (Node.sourceFileView_nonRetaining n)) fun _ => rfl
  | .view view, v => .bind ((c.resolve_accounted .type v).mono (by simp [Conv.isPlain])) fun t =>
      .map (Accounted.of_nonRetaining (TypeProxy.toView_nonRetaining t view)) fun _ => rfl
  | .list of, v =>
      .map ((Conversion.listOf_accounted (of.convert_accounted p c) World.drop_eq_foldl v).mono
        (by simp [Conv.isPlain])) fun items => (Item.allReferences_eq_flatMap items).symm
  | .build fields, v =>
      .bind (Accounted.of_nonRetaining (Conversion.toObject_foreignActs v).nonRetaining) fun r =>
        .map ((fields.read_accounted p c r).mono (by simp [Conv.isPlain])) fun items =>
          (Item.allReferences_eq_flatMap items).symm

theorem ConvFields.read_accounted (p : Crossing → Bool) (c : ContextId) (r : ObjectRef) :
    (fields : ConvFields) →
      (fields.read c r).Accounted p c (fields.isPlain = true) fun items =>
        items.flatMap Item.references
  | .nil => .pure rfl
  | .field name nullable of rest => by
    have hplain : (ConvFields.field name nullable of rest).isPlain = true →
        of.isPlain = true ∧ rest.isPlain = true := Bool.and_eq_true_iff.1
    have hof (v : Value) := (of.convert_accounted p c v).mono fun h => (hplain h).1
    have hrest := (rest.read_accounted p c r).mono fun h => (hplain h).2
    -- Either way of reading the field hands out what the item holds, and the rest gives it up if it stops.
    unfold ConvFields.read
    split
    · exact .bind_onStop (.map (c.readNullable_accounted hof r name) Item.references_option)
        (fun _ => hrest) World.drop_eq_foldl fun _ _ => List.flatMap_cons
    · exact .bind_onStop (c.read_accounted hof r name) (fun _ => hrest) World.drop_eq_foldl
        fun _ _ => List.flatMap_cons

end

theorem Conv.apply_accounted (p : Crossing → Bool) (c : ContextId) (conv : Conv) (mode : ConvMode)
    (v : Value) : (conv.apply c mode v).Accounted p c (conv.isPlain = true) Item.references := by
  cases mode with
  | required => exact Conversion.required_accounted (conv.convert_accounted p c) v
  | nullable =>
    exact .map (Conversion.nullable_accounted (conv.convert_accounted p c) v) Item.references_option
  | unchecked => exact conv.convert_accounted p c v

/-! ## Every conversion -/

/-- The node lists in a result, each as often as the result holds it. -/
def Item.nodeLists (item : Item) : List ListId :=
  item.references.filterMap fun
    | .list l => some l
    | _ => none

theorem Item.nodeLists_of_references {item : Item} {ls : List ListId}
    (h : item.references = ls.map .list) : item.nodeLists = ls := by
  rw [nodeLists, h, List.filterMap_map]
  exact List.filterMap_some

namespace Conv

/-- How a conversion leaves its context. With a result, the context retains one further handle for each new
entry and each node list in the result. If the conversion stops, it retains one for each new entry, as
long as handles suffice. A plain conversion leaves the handles and the entries as they are. -/
structure Balanced (conv : Conv) (c : ContextId) (w : World)
    (r : Except (Stop SessionError) Item × World) : Prop where
  result : ∀ item, r.1 = .ok item → (w.context c).Accounts (r.2.context c) item.nodeLists.length
  stop : ∀ s, r.1 = .error s → (r.2.context c).custodian.slots.size ≤ 2 ^ 32 →
    (w.context c).Accounts (r.2.context c) 0
  plain : conv.isPlain = true → (r.2.context c).custodian = (w.context c).custodian ∧
    ∀ k, (r.2.context c).identities k = (w.context c).identities k

theorem balanced_of_keepsUnless {p : Crossing → Bool} {c : ContextId} {E : Engine}
    (hE : E.Obeys (World.KeepsUnless p c)) (conv : Conv) (mode : ConvMode) (v : Value) {w : World}
    (hr : (w.context c).Ready) (he : (conv.apply c mode v E w).2.tally p = w.tally p) :
    conv.Balanced c w (conv.apply c mode v E w) := by
  have h := conv.apply_accounted p c mode v E hE w
  generalize conv.apply c mode v E w = r at h he ⊢
  have hplain {w' : World} (hs : w.toHoldings.KeepsContext c w'.toHoldings) :
      (w'.context c).custodian = (w.context c).custodian ∧
        ∀ k, (w'.context c).identities k = (w.context c).identities k := by
    obtain ⟨failures, tag, hcontext⟩ := hs.context
    rw [hcontext]
    exact ⟨rfl, fun k => by cases k <;> rfl⟩
  cases h with
  | @result item w' ls hheld hb =>
    refine ⟨fun item' hitem => ?_, fun s hs => ?_, fun hp => hplain (hb.keepsContext hp he).1⟩
    · cases hitem
      have ha := (hb.made hr he (by simp)).adds.toAccounts
      rw [List.length_map, Option.getD_some, ← Item.nodeLists_of_references hheld] at ha
      exact ha
    · cases hs
  | @stop s w' hb =>
    refine ⟨fun item hitem => ?_, fun s' hs hsize => ?_, fun hp => hplain (hb.keepsContext hp he).1⟩
    · cases hitem
    · exact (hb.made hr he fun _ => hsize).adds.toAccounts

/-- Whatever is converted in an open context, and however it ends, the context retains no more than the
result and the new entries account for, if the foreign code leaves the context alone: for any engine
whose functions do, and for a run in which no host function that runs steps is called. -/
theorem apply_balanced (c : ContextId) (conv : Conv) (mode : ConvMode) (v : Value) :
    (∀ E : Engine, E.KeepsContext c → ∀ w : World, (w.context c).Ready →
      conv.Balanced c w (conv.apply c mode v E w)) ∧
    ∀ (n room : Nat) (w : World), (w.context c).Ready →
      (conv.apply c mode v (Engine.ofFuel n room) w).2.hostCalls = w.hostCalls →
        conv.Balanced c w (conv.apply c mode v (Engine.ofFuel n room) w) := by
  refine ⟨fun E hE w hr => ?_, fun n room w hr he => ?_⟩
  · exact balanced_of_keepsUnless hE.keepsUnless conv mode v hr (by simp [World.tally])
  · exact balanced_of_keepsUnless (Engine.ofFuel_keepsUnless c n room) conv mode v hr he

/-- An object of an array, a node and a text. -/
def bundle : Object :=
  let property (name : String) (v : Value) : Property := ⟨.ofString name, .data v, true⟩
  { label := some "bundle"
    kind := .plain
    properties := [property "nodes" (.object ⟨7⟩), property "node" (.object ⟨6⟩),
      property "count" (.ofString "many")] }

/-- The world after the sample session has opened its context, with the further object. -/
def bundleWorld : World :=
  let w := Session.sampleWorld 1
  { w with heap := (w.heap.alloc bundle).2 }

def bundleValue : Value := .object ((Session.sampleWorld 1).heap.alloc bundle).1

/-- Converts the array to a node list, then the node to a proxy, and last the text. -/
def bundleConv (count : Conv) : Conv :=
  .build (.field "nodes" false .nodeList (.field "node" true (.proxy .node)
    (.field "count" false count .nil)))

def bundleRun (count : Conv) : Except (Stop SessionError) Item × World :=
  (bundleConv count).apply ⟨0⟩ .required bundleValue (Engine.ofFuel 3 stackSize) bundleWorld

/-- A text that is read as such lets the conversion end with a list, a new entry and a handle for each. A
text that is read as an integer stops it after both were made: the list goes, the entry stays. An engine
that runs no function at all leaves every context alone. -/
theorem apply_balanced_sample :
    (∃ item, (bundleRun .text).1 = .ok item ∧ item.nodeLists.length = 1 ∧
      (bundleWorld.context ⟨0⟩).Accounts ((bundleRun .text).2.context ⟨0⟩) 1) ∧
    (∃ s, (bundleRun .int32).1 = .error s ∧
      (bundleRun .int32).2.lists.size = bundleWorld.lists.size + 1 ∧
      (bundleWorld.context ⟨0⟩).Accounts ((bundleRun .int32).2.context ⟨0⟩) 0) ∧
    (((Conv.list .object).apply ⟨0⟩ .nullable (.object ⟨7⟩) (Engine.ofFuel 0 stackSize)
        bundleWorld).2.context ⟨0⟩).custodian = (bundleWorld.context ⟨0⟩).custodian := by
  have hready : (bundleWorld.context ⟨0⟩).Ready := ⟨by decide +kernel, by decide +kernel⟩
  refine ⟨?_, ?_, ?_⟩
  · have hcount : (bundleRun .text).1.toOption.map (fun item => item.nodeLists.length) = some 1 := by
      decide +kernel
    obtain ⟨item, hitem, hone⟩ := Option.map_eq_some_iff.1 hcount
    have hrun := congrArg Prod.fst (Session.run_of_toOption hitem)
    have hcalls : (bundleRun .text).2.hostCalls = bundleWorld.hostCalls := by decide +kernel
    have hbalanced : (bundleConv .text).Balanced ⟨0⟩ bundleWorld (bundleRun .text) :=
      (apply_balanced ⟨0⟩ (bundleConv .text) .required bundleValue).2 3 stackSize bundleWorld hready
        hcalls
    have haccounts := hbalanced.result item hrun
    rw [hone] at haccounts
    exact ⟨item, hrun, hone, haccounts⟩
  · have hstop : ∃ s, (bundleRun .int32).1 = .error s := by
      have hnone : (bundleRun .int32).1.toOption.isNone = true := by decide +kernel
      cases hr : (bundleRun .int32).1 with
      | ok item => simp [hr, Except.toOption] at hnone
      | error s => exact ⟨s, rfl⟩
    obtain ⟨s, hs⟩ := hstop
    have hcalls : (bundleRun .int32).2.hostCalls = bundleWorld.hostCalls := by decide +kernel
    have hbalanced : (bundleConv .int32).Balanced ⟨0⟩ bundleWorld (bundleRun .int32) :=
      (apply_balanced ⟨0⟩ (bundleConv .int32) .required bundleValue).2 3 stackSize bundleWorld hready
        hcalls
    exact ⟨s, hs, by decide +kernel, hbalanced.stop s hs (by decide +kernel)⟩
  · have hkeeps : (Engine.ofFuel 0 stackSize).KeepsContext ⟨0⟩ := fun _ _ _ _ _ => .refl _ _
    have hbalanced := (apply_balanced ⟨0⟩ (.list .object) .nullable (.object ⟨7⟩)).1 _ hkeeps
      bundleWorld hready
    exact (hbalanced.plain rfl).1

end Conv

end ProxySession
