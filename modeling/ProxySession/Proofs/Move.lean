import Mathlib.Logic.Relation
import ProxySession.Proofs.Lifetime

/-!
# Moves of a session

A running session moves in few ways: it takes or gives back a reference, sets or clears a variable,
hands out a proxy, a list, a scanner session or a context, or closes something. `Change` lists these
ways together with the references that the running operations own before and after. Functions of the
host can own references, too, and count as running operations here: what they captured goes when foreign
code frees them, which can be between any two changes (`Change.drop`) or together with a list whose array
kept them (`Change.free`). A `Move` is a change, a new record, or a step that leaves the holdings alone.
-/

namespace ProxySession

namespace Holdings

/-- The handle of the next value that a context retains. -/
def nextHandle (c : ContextId) (h : Holdings) : HandleId :=
  ⟨UInt32.ofNat (h.context c).custodian.slots.size⟩

/-- A context retains a value. -/
def retain (c : ContextId) (v : Value) (h : Holdings) : Holdings :=
  h.modifyContext c fun cx =>
    { cx with custodian := { cx.custodian with slots := cx.custodian.slots.push (some v) } }

/-- An identity map gets a new entry. -/
def addEntry (c : ContextId) (k : ProxyKind) (key : Int64) (handle : HandleId) (h : Holdings) :
    Holdings :=
  h.modifyContext c fun cx => cx.setIdentities k
    { cx.identities k with entries := (cx.identities k).entries ++ [(key, handle)] }

def record (resolution : Resolution) (h : Holdings) : Holdings :=
  { h with resolutions := h.resolutions.push resolution }

/-- An object gets a proxy of its own. -/
def enroll (c : ContextId) (k : ProxyKind) (r : ObjectRef) (key : Int64) (h : Holdings) : Holdings :=
  ((h.retain c (.object r)).addEntry c k key (h.nextHandle c)).record
    ⟨k, r, key, ⟨c, key, h.nextHandle c⟩⟩

/-- A value becomes a node list with one clone. -/
def convert (c : ContextId) (v : Value) (length : Nat) (h : Holdings) : Holdings :=
  { h.retain c v with
    lists := h.lists.push
      { context := c, handle := h.nextHandle c, length, clones := 1, origin := v } }

/-- A scanner session over a scanner object, with one clone. -/
def freshSession (c : ContextId) (text : String) (r : ObjectRef) : ScannerSession :=
  { context := c
    custodian := { name := "scanner", slots := #[some (.object r)], resources := [], closed := false }
    handle := ⟨0⟩, text, clones := 1 }

/-- A context gets a new scanner session, which it tracks and which keeps it alive. -/
def openSession (c : ContextId) (text : String) (r : ObjectRef) (h : Holdings) : Holdings :=
  let tracked (rs : List ScannerId) : List ScannerId :=
    rs.filter (fun s => !(h.scanner s).custodian.closed) ++ [⟨h.scanners.size⟩]
  ({ h with scanners := h.scanners.push (freshSession c text r) }.modifyContext c fun cx =>
    { cx with custodian := { cx.custodian with resources := tracked cx.custodian.resources } }).take
      (.context c)

def openContext (cx : Context) (h : Holdings) : Holdings :=
  { h with contexts := h.contexts.push cx }

/-- What the variable of a name keeps alive. -/
def boundTo (name : String) (h : Holdings) : List Reference :=
  (h.bindings.lookup name).elim [] Item.references

def unbind (name : String) (h : Holdings) : Holdings :=
  { h with bindings := h.bindings.filter fun v => v.1 != name }

def bind (name : String) (item : Item) (h : Holdings) : Holdings :=
  { h with bindings := (name, item) :: h.bindings.filter fun v => v.1 != name }

end Holdings

/-- A change of what is held, and of the references that running operations own. -/
inductive Change : Multiset Reference → Holdings → Multiset Reference → Holdings → Prop
  | pending {F h} (c : ContextId) (failures : Context → List HostFailure) (tag : Context → Nat) :
    Change F h F (h.modifyContext c fun cx =>
      { cx with pending := failures cx, lastTag := tag cx })
  | hold {F h r} (hr : r ∈ h.variableReferences) : Change F h (r ::ₘ F) (h.take r)
  | enter {F h c} (hc : (h.context c).references ≠ 0) :
    Change F h (.context c ::ₘ F) (h.take (.context c))
  | drop {F h} (r : Reference) : Change (r ::ₘ F) h F (h.giveBack r)
  /-- With the array of a list go functions of the host that own clones of lists of the same context. -/
  | free {F h l} (owned : List ListId) (h1 : (h.list l).clones = 1)
    (ho : (h.context (h.list l).context).custodian.closed = false)
    (hc : ∀ m ∈ owned, (h.list m).context = (h.list l).context) :
    Change (.list l ::ₘ (owned.map Reference.list + F)) h F (h.giveListOwning owned l)
  | bind {F h} (name : String) (item : Item) :
    Change (item.references + F) h (h.boundTo name + F) (h.bind name item)
  | unbind {F h} (name : String) : Change F h (h.boundTo name + F) (h.unbind name)
  | hit {F h c k key handle} (r : ObjectRef)
    (he : ((h.context c).identities k).get? key = some handle) :
    Change F h F (h.record ⟨k, r, key, ⟨c, key, handle⟩⟩)
  | miss {F h c k key} (r : ObjectRef) (hc : .context c ∈ F)
    (ho : (h.context c).custodian.closed = false)
    (hn : ((h.context c).identities k).get? key = none) : Change F h F (h.enroll c k r key)
  | convert {F h c} (v : Value) (length : Nat) (hc : .context c ∈ F)
    (ho : (h.context c).custodian.closed = false) :
    Change F h (.list ⟨h.lists.size⟩ ::ₘ F) (h.convert c v length)
  | openSession {F h c} (text : String) (r : ObjectRef) (hc : .context c ∈ F)
    (ho : (h.context c).custodian.closed = false) :
    Change F h (.scanner ⟨h.scanners.size⟩ ::ₘ F) (h.openSession c text r)
  | openContext {F h} (p : Bootstrap.Parts) (token : Value) (rules : IdentityRules) :
    Change F h (.context ⟨h.contexts.size⟩ ::ₘ F)
      (h.openContext (Bootstrap.newContext p token rules))
  | shutContext {F h} (c : ContextId) : Change F h F (h.shutContext c)
  | shutScanner {F h} (s : ScannerId) : Change F h F (h.shutScanner s)

/-- A move from one world to another. -/
inductive Move : Multiset Reference × World → Multiset Reference × World → Prop
  | still {F w w'} (hw : World.Becomes w w' w.toHoldings) : Move (F, w) (F, w')
  | change {F F' w w' h} (hc : Change F w.toHoldings F' h) (hw : World.Becomes w w' h) :
    Move (F, w) (F', w')
  | mark {F w} : Move (F, w) (F, w.mark)

/-- A run of moves. -/
abbrev Moves (F : Multiset Reference) (w : World) (F' : Multiset Reference) (w' : World) : Prop :=
  Relation.ReflTransGen Move (F, w) (F', w')

namespace Moves

variable {F F' : Multiset Reference} {w w' : World}

theorem still (hw : w.Becomes w' w.toHoldings) : Moves F w F w' := .single (.still hw)

theorem change {h : Holdings} (hc : Change F w.toHoldings F' h) (hw : w.Becomes w' h) :
    Moves F w F' w' := .single (.change hc hw)

/-- What every change of the holdings keeps, a run of moves keeps. -/
theorem preserves {P : Multiset Reference → Holdings → Prop} (hm : Moves F w F' w') (hstart : P F w.toHoldings)
    (hchange : ∀ {G G' : Multiset Reference} {h h' : Holdings}, Change G h G' h' → P G h → P G' h') :
    P F' w'.toHoldings := by
  have hrun {p : Multiset Reference × World} (hp : Relation.ReflTransGen Move (F, w) p) :
      P p.1 p.2.toHoldings := by
    induction hp with
    | refl => exact hstart
    | tail _ hmove ih =>
      cases hmove with
      | still hw =>
        rw [hw.holdings]
        exact ih
      | change hc hw =>
        rw [hw.holdings]
        exact hchange hc ih
      | mark => exact ih
  exact hrun hm

end Moves

end ProxySession
