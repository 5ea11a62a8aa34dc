import ProxySession.Proofs.Lifetime
import ProxySession.Proofs.Regimes

/-!
# How contexts end

A context ends when it is told to close, or when its last reference goes while it is open. The log warns
of the second. What is closed on the way stays indoors, and logs no such warning.
-/

namespace ProxySession

/-- The end of a context. -/
inductive Ending where
  | told (c : ContextId)
  | abandoned (c : ContextId)
deriving DecidableEq

namespace Ending

def context : Ending → ContextId
  | told c | abandoned c => c

def isAbandoned : Ending → Bool
  | told _ => false
  | abandoned _ => true

end Ending

/-- Whether the event warns that a context is given up without having been closed. -/
def LogEvent.isAbandonment (e : LogEvent) : Bool :=
  match e.level with
  | .warn => e.message == "program context dropped without close; releasing handles"
  | .trace | .debug | .span => false

/-- The context that loses a reference when a reference is given back: a scanner session gives its own
back with its last clone. -/
def Holdings.spends (h : Holdings) : Reference → Option ContextId
  | .list _ => none
  | .context c => some c
  | .scanner s => if (h.scanner s).clones ≤ 1 then some (h.scanner s).context else none

namespace World

/-- The number of such warnings in the log. -/
def warnings (w : World) : Nat := w.events.countP LogEvent.isAbandonment

/-- What telling a context to close ends. -/
def toldTo (c : ContextId) (w : World) : List Ending :=
  if c.index < w.contexts.size ∧ (w.context c).custodian.closed = false then [.told c] else []

/-- What giving a reference to a context back ends. -/
def abandonedBy (c : ContextId) (w : World) : List Ending :=
  if (w.context c).references ≤ 1 ∧ (w.context c).custodian.closed = false then [.abandoned c]
  else []

/-- What giving a reference back ends. -/
def endedBy (r : Reference) (w : World) : List Ending :=
  (w.spends r).elim [] fun c => w.abandonedBy c

/-! ## Indoors -/

/-- Two worlds that differ in the holdings, in the events and in what was added to the record of
crossings at most. -/
structure Indoors (w w' : World) : Prop where
  rest : { w with toHoldings := w'.toHoldings, crossings := w'.crossings, events := w'.events } = w'
  record : w.crossings.toList <+: w'.crossings.toList

/-- Two such worlds, with as many warnings. -/
structure Tacit (w w' : World) : Prop where
  indoors : w.Indoors w'
  warnings : w'.warnings = w.warnings

/-- A closing that changes the holdings and these records at most, and warns of no end. -/
def StaysTacit {α : Type} (x : StateM World α) : Prop := ∀ w : World, w.Tacit (x w).2

section

variable {w w' w'' : World} {α β ρ : Type}

theorem Indoors.refl (w : World) : w.Indoors w := ⟨rfl, List.prefix_rfl⟩

theorem Indoors.trans (h₁ : w.Indoors w') (h₂ : w'.Indoors w'') : w.Indoors w'' where
  rest := by
    have h := h₂.rest
    rw [← h₁.rest] at h
    exact h
  record := h₁.record.trans h₂.record

/-- A change of the holdings alone, or of the events. -/
theorem Indoors.within (w : World) (h : Holdings) (events : Array LogEvent) :
    w.Indoors { w with toHoldings := h, events } :=
  ⟨rfl, List.prefix_rfl⟩

theorem warnings_log (w : World) (level : LogLevel) (message : String)
    (fields : List (String × String)) : (w.log level message fields).warnings =
      w.warnings + if LogEvent.isAbandonment ⟨level, message, fields⟩ then 1 else 0 :=
  Array.countP_push ..

theorem Tacit.refl (w : World) : w.Tacit w := ⟨.refl w, rfl⟩

theorem Tacit.trans (h₁ : w.Tacit w') (h₂ : w'.Tacit w'') : w.Tacit w'' :=
  ⟨h₁.indoors.trans h₂.indoors, h₂.warnings.trans h₁.warnings⟩

theorem Tacit.log {level : LogLevel} {message : String} {fields : List (String × String)}
    (h : LogEvent.isAbandonment ⟨level, message, fields⟩ = false) (w : World) :
    w.Tacit (w.log level message fields) where
  indoors := .within w _ _
  warnings := by
    rw [warnings_log, h]
    rfl

theorem Tacit.cross (w : World) (crossing : Crossing) : w.Tacit (w.cross crossing) :=
  ⟨⟨rfl, w.record_cross crossing⟩, rfl⟩

/-- A change of the holdings alone. -/
theorem Tacit.holdings (w : World) (h : Holdings) : w.Tacit { w with toHoldings := h } :=
  ⟨.within w h _, rfl⟩

theorem StaysTacit.pure (a : α) : StaysTacit (Pure.pure a) := fun w => .refl w

theorem StaysTacit.get : StaysTacit (MonadState.get : StateM World World) := fun w => .refl w

theorem StaysTacit.bind {x : StateM World α} {f : α → StateM World β} (hx : StaysTacit x)
    (hf : ∀ a, StaysTacit (f a)) : StaysTacit (x >>= f) :=
  fun w => (hx w).trans (hf (x w).1 (x w).2)

theorem closeResources_tacit {close : ρ → StateM World (Except SessionError Unit)}
    {report : Nat → SessionError → StateM World Unit} (hclose : ∀ r, StaysTacit (close r))
    (hreport : ∀ i e, StaysTacit (report i e)) :
    (rs : List ρ) → (i : Nat) → StaysTacit (Custodian.closeResources close report i rs)
  | [], _ => .pure 0
  | r :: rest, i => by
    unfold Custodian.closeResources
    refine (hclose r).bind fun result => ?_
    cases result with
    | ok u => exact closeResources_tacit hclose hreport rest (i + 1)
    | error e =>
      exact (hreport i e).bind fun _ =>
        (closeResources_tacit hclose hreport rest (i + 1)).bind fun _ => .pure _

theorem closeCustodian_tacit (custodian : Custodian ρ)
    {close : ρ → StateM World (Except SessionError Unit)} (hclose : ∀ r, StaysTacit (close r)) :
    StaysTacit (closeCustodian custodian close) := by
  unfold closeCustodian
  refine StaysTacit.bind ?_ fun result => ?_
  · unfold Custodian.close
    split
    · exact .pure _
    · refine (closeResources_tacit hclose ?_ _ 0).bind fun _ => .pure _
      exact fun _ _ => .log rfl
  · cases result with
    | error e => exact .pure _
    | ok closing => exact StaysTacit.bind (.log rfl) fun _ => .pure _

theorem closeScanner_tacit (s : ScannerId) : StaysTacit (closeScanner s) := by
  unfold closeScanner
  refine StaysTacit.get.bind fun w =>
    (closeCustodian_tacit _ fun e => nomatch e).bind fun result => ?_
  cases result with
  | error e => exact .pure _
  | ok custodian => exact StaysTacit.bind (fun w => .holdings w _) fun _ => .pure _

theorem closeTracked_tacit (s : ScannerId) : StaysTacit (closeTracked s) := by
  unfold closeTracked
  refine StaysTacit.get.bind fun w => ?_
  split
  · exact .pure _
  · exact closeScanner_tacit s

theorem tearDown_tacit (c : ContextId) : StaysTacit (tearDown c) := by
  unfold tearDown
  refine StaysTacit.bind (.log rfl) fun _ => StaysTacit.get.bind fun w =>
    (closeCustodian_tacit _ closeTracked_tacit).bind fun result => ?_
  cases result with
  | error e => exact .pure _
  | ok custodian =>
    exact StaysTacit.bind (fun w => .holdings w _) fun _ => StaysTacit.bind (.log rfl) fun _ => .pure _

/-! ## Taking and giving back -/

theorem take_tacit (r : Reference) (w : World) : w.Tacit (take r w) := by
  cases r <;> exact .holdings w _

theorem releaseList_tacit (l : ListId) (w : World) : w.Tacit (releaseList false l w) := by
  simp only [releaseList, Bool.false_eq_true, if_false]
  split
  · exact .refl w
  · split
    · exact .holdings w _
    · exact .log rfl w

theorem dropList_tacit (l : ListId) (w : World) : w.Tacit (dropList false l w) := by
  have hlower : w.Tacit (w.updateList l fun cell => { cell with clones := cell.clones - 1 }) :=
    .holdings w _
  simp only [dropList]
  split
  · exact hlower.trans (releaseList_tacit l _)
  · exact hlower

theorem dropContext_indoors (c : ContextId) (w : World) : w.Indoors (dropContext c w) := by
  simp only [dropContext]
  split
  · have hbefore : w.Indoors ((w.updateContext c fun cx =>
        { cx with references := cx.references - 1 }).log .warn
          "program context dropped without close; releasing handles" []) := .within w _ _
    exact hbefore.trans (tearDown_tacit c _).indoors
  · exact .within w _ _

/-- Giving a reference back ends an open context with its last one. -/
theorem dropContext_ends (c : ContextId) (w : World) :
    let lowered := w.updateContext c fun cx => { cx with references := cx.references - 1 }
    (lowered.context c).references = 0 ∧ ¬(lowered.context c).custodian.closed ↔
      (w.context c).references ≤ 1 ∧ (w.context c).custodian.closed = false := by
  intro lowered
  have hm := Holdings.context_modifyContext c c
    (fun cx => { cx with references := cx.references - 1 }) w.toHoldings
  change lowered.context c = _ at hm
  split at hm
  · rw [hm]
    simp
    omega
  · next hv =>
    have hd : w.context c = default :=
      getD_of_size_le (Nat.le_of_not_lt fun h => hv ⟨rfl, h⟩)
    rw [hm]
    change (w.context c).references = 0 ∧ _ ↔ _
    rw [hd]
    simp [show (default : Context).references = 0 from rfl]

theorem dropContext_warnings (c : ContextId) (w : World) :
    (dropContext c w).warnings = w.warnings + (w.abandonedBy c).length := by
  simp only [dropContext, abandonedBy]
  by_cases h : (w.context c).references ≤ 1 ∧ (w.context c).custodian.closed = false
  · rw [if_pos h, if_pos ((dropContext_ends c w).2 h), (tearDown_tacit c _).warnings, warnings_log]
    rfl
  · rw [if_neg h, if_neg fun h' => h ((dropContext_ends c w).1 h')]
    rfl

/-- Closing a session leaves all contexts as they are. -/
theorem closeTracked_contexts (s : ScannerId) (w : World) :
    (closeTracked s w).2.contexts = w.contexts := by
  rw [(closeTracked_becomes s w).holdings]
  rfl

theorem dropScanner_indoors (s : ScannerId) (w : World) : w.Indoors (dropScanner s w) := by
  have hlower : w.Indoors (w.updateScanner s fun session =>
      { session with clones := session.clones - 1 }) := .within w _ _
  simp only [dropScanner]
  split
  · exact (hlower.trans (closeTracked_tacit s _).indoors).trans (dropContext_indoors _ _)
  · exact hlower

theorem giveBack_indoors (r : Reference) (w : World) : w.Indoors (giveBack r w) := by
  cases r with
  | list l => exact (dropList_tacit l w).indoors
  | context c => exact dropContext_indoors c w
  | scanner s => exact dropScanner_indoors s w

theorem dropScanner_warnings (s : ScannerId) (w : World) :
    (dropScanner s w).warnings = w.warnings + (endedBy (.scanner s) w).length := by
  let lowered := w.updateScanner s fun session => { session with clones := session.clones - 1 }
  have hx : (lowered.scanner s).clones = (w.scanner s).clones - 1 ∧
      (lowered.scanner s).context = (w.scanner s).context := by
    have hm := Holdings.scanner_modifyScanner s s
      (fun session => { session with clones := session.clones - 1 }) w.toHoldings
    change lowered.scanner s = _ at hm
    split at hm
    · rw [hm]
      exact ⟨rfl, rfl⟩
    · next hv =>
      have hd : w.scanner s = default :=
        getD_of_size_le (Nat.le_of_not_lt fun h => hv ⟨rfl, h⟩)
      rw [hm]
      refine ⟨?_, rfl⟩
      rw [hd]
      rfl
  change (if (lowered.scanner s).clones = 0 then
    dropContext (lowered.scanner s).context (closeTracked s lowered).2 else lowered).warnings = _
  rw [hx.1, hx.2, endedBy, Holdings.spends]
  split
  · next h0 =>
    rw [if_pos (by omega), Option.elim_some, dropContext_warnings, (closeTracked_tacit s lowered).warnings,
      abandonedBy, Holdings.context, closeTracked_contexts]
    rfl
  · next h0 =>
    rw [if_neg (by omega)]
    rfl

/-- The log warns of each context that is given up, and of nothing else. -/
theorem giveBack_warnings (r : Reference) (w : World) :
    (giveBack r w).warnings = w.warnings + (endedBy r w).length := by
  cases r with
  | list l => exact (dropList_tacit l w).warnings
  | context c => exact dropContext_warnings c w
  | scanner s => exact dropScanner_warnings s w

end

end World

end ProxySession
