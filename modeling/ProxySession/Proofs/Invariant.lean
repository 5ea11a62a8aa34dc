import ProxySession.Proofs.ContextContents
import ProxySession.Proofs.Move
import ProxySession.Proofs.Sums

/-!
# The invariant of a session

Every list, context and scanner session counts its owners: the running operations, the variables,
and for a context the scanner sessions that are alive. An open context tracks its open sessions and
keeps what `Context.Keeps` says; a closed one holds nothing and has no open session.
-/

namespace ProxySession

/-- What a list keeps in a context while it is alive, or for good if it was left there: its slot and the
value it was made of. -/
def NodeList.share (c : ContextId) (cell : NodeList) : Multiset (Nat × Value) :=
  if cell.context = c ∧ (cell.clones ≠ 0 ∨ cell.left = true) then
    {(cell.handle.index.toNat, cell.origin)}
  else 0

/-- The reference of a session to a context while it is alive. -/
def ScannerSession.stake (c : ContextId) (session : ScannerSession) : Nat :=
  if session.context = c ∧ session.clones ≠ 0 then 1 else 0

/-- Two contexts with the same custodian, identity maps and first handles. -/
structure Context.Alike (cx cx' : Context) : Prop where
  custodian : cx'.custodian = cx.custodian
  identities : ∀ k, cx'.identities k = cx.identities k
  rootHandles : cx'.rootHandles = cx.rootHandles

namespace Holdings

/-! ## Owners -/

/-- What the lists keep in a context. -/
def shares (c : ContextId) (h : Holdings) : Multiset (Nat × Value) :=
  total (NodeList.share c) h.lists

/-- The number of scanner sessions that own a reference. -/
def staked (h : Holdings) : Reference → Nat
  | .context c => total (ScannerSession.stake c) h.scanners
  | _ => 0

/-- How often something is held. -/
def count (h : Holdings) : Reference → Nat
  | .list l => (h.list l).clones
  | .context c => (h.context c).references
  | .scanner s => (h.scanner s).clones

/-- The number of owners if running operations own `F`. -/
def owners (F : Multiset Reference) (h : Holdings) (r : Reference) : Nat :=
  (F + h.variableReferences).count r + h.staked r

/-! ## Contexts -/

/-- The resolutions in a context. -/
def resolutionsOf (c : ContextId) (h : Holdings) : List Resolution :=
  h.resolutions.toList.filter fun ρ => ρ.proxy.context = c

/-- A session on a context that is open. -/
structure OpenOn (h : Holdings) (s : ScannerId) (c : ContextId) : Prop where
  valid : s.index < h.scanners.size
  context : (h.scanner s).context = c
  isOpen : (h.scanner s).custodian.closed = false

/-- An open context that is in order. -/
structure Alive (h : Holdings) (c : ContextId) : Prop where
  tracked : ∀ s, h.OpenOn s c → s ∈ (h.context c).custodian.resources
  keeps : (h.context c).Keeps (h.shares c) (h.resolutionsOf c)

/-- A closed context that is in order. -/
structure Ended (h : Holdings) (c : ContextId) : Prop where
  slots : (h.context c).custodian.slots = #[]
  resources : (h.context c).custodian.resources = []
  entries : ∀ k, ((h.context c).identities k).entries = []
  sessions : ∀ s, ¬h.OpenOn s c

/-- What holds while references may be on their way back. -/
structure Consistent (F : Multiset Reference) (h : Holdings) : Prop where
  names : (h.bindings.map Prod.fst).Nodup
  counts : ∀ r, h.count r = h.owners F r
  lists : ∀ l, l.index < h.lists.size → (h.list l).context.index < h.contexts.size
  left : ∀ l, (h.list l).left = true → (h.list l).clones = 0
  scanners : ∀ s, s.index < h.scanners.size → (h.scanner s).context.index < h.contexts.size
  resolutions : ∀ ρ ∈ h.resolutions, ρ.proxy.context.index < h.contexts.size
  alive : ∀ c, c.index < h.contexts.size → (h.context c).custodian.closed = false → h.Alive c
  ended : ∀ c, (h.context c).custodian.closed = true → h.Ended c

/-- The invariant, if running operations own `F`. -/
structure Sound (F : Multiset Reference) (h : Holdings) : Prop extends Consistent F h where
  referenced : ∀ c, c.index < h.contexts.size → (h.context c).custodian.closed = false →
    (h.context c).references ≠ 0

theorem empty_sound : Sound 0 Holdings.empty where
  names := List.nodup_nil
  counts r := by cases r <;> rfl
  lists l hl := absurd hl (Nat.not_lt_zero _)
  left l hl := by cases hl
  scanners s hs := absurd hs (Nat.not_lt_zero _)
  resolutions ρ hρ := absurd hρ (Array.not_mem_empty ρ)
  alive c hc := absurd hc (Nat.not_lt_zero _)
  ended c hc := by cases hc
  referenced c hc := absurd hc (Nat.not_lt_zero _)

/-- What is held exists. -/
theorem valid_of_count : {h : Holdings} → {r : Reference} → h.count r ≠ 0 → match r with
    | .list l => l.index < h.lists.size
    | .context c => c.index < h.contexts.size
    | .scanner s => s.index < h.scanners.size
  | h, .list l, hr => by
    by_contra hl
    exact hr (congrArg NodeList.clones (getD_of_size_le (Nat.le_of_not_lt hl)))
  | h, .context c, hr => by
    by_contra hc
    exact hr (congrArg Context.references (getD_of_size_le (Nat.le_of_not_lt hc)))
  | h, .scanner s, hr => by
    by_contra hs
    exact hr (congrArg ScannerSession.clones (getD_of_size_le (Nat.le_of_not_lt hs)))

theorem valid_of_closed {h : Holdings} {c : ContextId}
    (hc : (h.context c).custodian.closed = true) : c.index < h.contexts.size := by
  by_contra hn
  have hd : h.context c = default := getD_of_size_le (Nat.le_of_not_lt hn)
  rw [hd] at hc
  cases hc

/-! ## What leaves a context undisturbed -/

/-- A context that sees no difference, except perhaps in its references and pending failures. -/
structure Undisturbed (h h' : Holdings) (c : ContextId) : Prop where
  alike : (h.context c).Alike (h'.context c)
  sessions : ∀ s, h'.OpenOn s c → h.OpenOn s c
  shares : h'.shares c = h.shares c
  resolutions : h'.resolutionsOf c = h.resolutionsOf c

theorem Undisturbed.alive {h h' : Holdings} {c : ContextId} (u : Undisturbed h h' c)
    (ha : h.Alive c) : h'.Alive c where
  tracked s hs := by
    rw [u.alike.custodian]
    exact ha.tracked s (u.sessions s hs)
  keeps := by
    rw [u.shares, u.resolutions]
    exact ha.keeps.congr (congrArg Custodian.slots u.alike.custodian) u.alike.identities
      u.alike.rootHandles

theorem Undisturbed.ended {h h' : Holdings} {c : ContextId} (u : Undisturbed h h' c)
    (he : h.Ended c) : h'.Ended c where
  slots := by
    rw [u.alike.custodian]
    exact he.slots
  resources := by
    rw [u.alike.custodian]
    exact he.resources
  entries k := by
    rw [u.alike.identities]
    exact he.entries k
  sessions s hs := he.sessions s (u.sessions s hs)

end Holdings

end ProxySession
