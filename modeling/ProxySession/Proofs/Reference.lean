import Mathlib.Algebra.BigOperators.Group.Multiset.Basic
import ProxySession.Session.Item

/-!
# References

A result keeps lists, contexts and scanner sessions alive. `Item.references` says which, and taking
and giving up a result takes and gives back these references one after the other.
-/

namespace ProxySession

/-- Something that is kept alive. -/
inductive Reference where
  | list (l : ListId)
  | context (c : ContextId)
  | scanner (s : ScannerId)
deriving DecidableEq

namespace Item

mutual

/-- What a result keeps alive, once for each reference. -/
def references : Item → List Reference
  | .nodeList l => [.list l]
  | .context c => [.context c]
  | .scanner s => [.scanner s]
  | .list items => allReferences items
  | _ => []

def allReferences : List Item → List Reference
  | [] => []
  | item :: rest => item.references ++ allReferences rest

end

theorem allReferences_eq_flatMap (items : List Item) :
    allReferences items = items.flatMap references := by
  induction items with
  | nil => rfl
  | cons item rest ih => rw [allReferences, ih, List.flatMap_cons]

theorem references_getElem? {items : List Item} {i : Nat} {item : Item}
    (h : items[i]? = some item) : item.references ⊆ (Item.list items).references := by
  rw [references, allReferences_eq_flatMap]
  intro r hr
  exact List.mem_flatMap.2 ⟨item, List.mem_of_getElem? h, hr⟩

theorem references_proxies {k : ProxyKind} (ps : List (Proxy k)) :
    (Item.proxies ps).references = [] := by
  rw [Item.proxies, references, allReferences_eq_flatMap]
  simp [references]

end Item

namespace World

/-! ## One reference -/

/-- Takes one reference. -/
def take : Reference → World → World
  | .list l => holdList l
  | .context c => holdContext c
  | .scanner s => holdScanner s

/-- Gives one reference back. -/
def giveBack : Reference → World → World
  | .list l => dropList false l
  | .context c => dropContext c
  | .scanner s => dropScanner s

mutual

theorem hold_eq_foldl : (item : Item) → (w : World) →
    hold item w = item.references.foldl (fun w r => take r w) w
  | .nodeList _, _ => rfl
  | .context _, _ => rfl
  | .scanner _, _ => rfl
  | .list items, w => by
    rw [hold, Item.references]
    exact holdAll_eq_foldl items w
  | .report _, _ | .foreign _, _ | .proxy _, _ | .sourceFile _, _ | .view _, _ => by
    simp [hold, Item.references]
  | .indexInfo _, _ | .table _, _ | .custodian _, _ | .handle _, _ => by
    simp [hold, Item.references]
  | .retained _, _ | .identityMap _, _ => by simp [hold, Item.references]

theorem holdAll_eq_foldl : (items : List Item) → (w : World) →
    holdAll items w = (Item.allReferences items).foldl (fun w r => take r w) w
  | [], _ => rfl
  | item :: rest, w => by
    rw [holdAll, Item.allReferences, List.foldl_append, hold_eq_foldl item w]
    exact holdAll_eq_foldl rest _

end

mutual

theorem drop_eq_foldl : (item : Item) → (w : World) →
    drop item w = item.references.foldl (fun w r => giveBack r w) w
  | .nodeList _, _ => rfl
  | .context _, _ => rfl
  | .scanner _, _ => rfl
  | .list items, w => by
    rw [drop, Item.references]
    exact dropAll_eq_foldl items w
  | .report _, _ | .foreign _, _ | .proxy _, _ | .sourceFile _, _ | .view _, _ => by
    simp [drop, Item.references]
  | .indexInfo _, _ | .table _, _ | .custodian _, _ | .handle _, _ => by
    simp [drop, Item.references]
  | .retained _, _ | .identityMap _, _ => by simp [drop, Item.references]

theorem dropAll_eq_foldl : (items : List Item) → (w : World) →
    dropAll items w = (Item.allReferences items).foldl (fun w r => giveBack r w) w
  | [], _ => rfl
  | item :: rest, w => by
    rw [dropAll, Item.allReferences, List.foldl_append, drop_eq_foldl item w]
    exact dropAll_eq_foldl rest _

end

end World

/-! ## Variables -/

/-- What some variables keep alive. -/
def referencesOf (bindings : List (String × Item)) : List Reference :=
  bindings.flatMap fun v => v.2.references

/-- What the variables keep alive. -/
def Holdings.variableReferences (h : Holdings) : List Reference := referencesOf h.bindings

theorem references_lookup {bindings : List (String × Item)} {name : String} {item : Item}
    (h : bindings.lookup name = some item) : item.references ⊆ referencesOf bindings := by
  intro r hr
  rw [List.lookup_eq_some_iff] at h
  obtain ⟨before, after, rfl, _⟩ := h
  simp only [referencesOf, List.flatMap_append, List.flatMap_cons, List.mem_append]
  exact Or.inr (Or.inl hr)

theorem World.partOf_references {part : String} {whole item : Item}
    (h : World.partOf part whole = some item) : item.references ⊆ whole.references := by
  cases whole with
  | list items =>
    obtain ⟨i, _, hi⟩ := Option.bind_eq_some_iff.1 h
    exact Item.references_getElem? hi
  | indexInfo i =>
    have hr : item.references = [] := by
      unfold World.partOf at h
      grind [Item.references]
    simp [hr]
  | _ => simp [World.partOf] at h

theorem World.lookupPieces_references {w : World} {item : Item} : {pieces : List (List Char)} →
    w.lookupPieces pieces = some item → item.references ⊆ w.variableReferences
  | [], h => by simp [World.lookupPieces] at h
  | piece :: rest, h => by
    rw [World.lookupPieces] at h
    split at h
    · next found e =>
      cases h
      exact references_lookup e
    · obtain ⟨whole, hw, hp⟩ := Option.bind_eq_some_iff.1 h
      exact fun r hr => World.lookupPieces_references hw (World.partOf_references hp hr)

/-- What a name stands for is kept alive by a variable. -/
theorem World.lookup_references {w : World} {name : String} {item : Item}
    (h : w.lookup name = some item) : item.references ⊆ w.variableReferences :=
  World.lookupPieces_references h

/-- The variables of other names keep alive all but what the variable of the name does. -/
theorem referencesOf_filter (name : String) : {bindings : List (String × Item)} →
    (bindings.map Prod.fst).Nodup →
      (referencesOf bindings : Multiset Reference) =
        ((bindings.lookup name).elim [] Item.references : List Reference) +
          (referencesOf (bindings.filter fun v => v.1 != name) : Multiset Reference)
  | [], _ => rfl
  | (other, item) :: rest, h => by
    simp only [List.map_cons, List.nodup_cons] at h
    have ih := referencesOf_filter name h.2
    by_cases he : name = other
    · subst he
      have hrest : rest.filter (fun v => v.1 != name) = rest := by
        rw [List.filter_eq_self]
        intro v hv
        have hne : v.1 ≠ name := fun e => h.1 (e ▸ List.mem_map_of_mem hv)
        simpa using hne
      simp [referencesOf, hrest]
    · have hne : other ≠ name := Ne.symm he
      have hb : (name == other) = false := by simpa using he
      simp only [referencesOf, List.flatMap_cons, List.lookup_cons, hb, ← Multiset.coe_add] at ih ⊢
      rw [ih, List.filter_cons_of_pos (by simpa using hne), List.flatMap_cons, ← Multiset.coe_add]
      exact add_left_comm _ _ _

end ProxySession
