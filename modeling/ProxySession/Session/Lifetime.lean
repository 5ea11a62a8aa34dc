import ProxySession.Session.World

/-!
# Lifetimes

Closing a context gives up its handles, empties its identity maps and closes its scanner sessions.
It happens once: at the first close, or when the last strong reference to the context goes. A node
list gives its handle back when its last clone goes, unless the custodian is busy at the moment, and a
scanner session closes when its last clone goes.
-/

namespace ProxySession

namespace World

/-- Runs the closing of a custodian and records it. -/
def closeCustodian {ρ : Type} (custodian : Custodian ρ)
    (close : ρ → StateM World (Except SessionError Unit)) :
    StateM World (Except LifetimeError (Custodian ρ)) := do
  let report (index : Nat) (e : SessionError) : StateM World Unit := modify fun w =>
    w.log .warn "failed to close tracked resource"
      [("holder", custodian.name), ("index", toString index), ("error", e.message)]
  match ← custodian.close close report with
  | .error e => pure (.error e)
  | .ok (closing, closed) =>
    modify fun w => w.log .debug "closed resource holder"
      [("holder", custodian.name), ("released", toString closing.released),
        ("failures", toString closing.failures)]
    pure (.ok closed)

/-! ## Scanner sessions -/

/-- Closes a scanner session. -/
def closeScanner (s : ScannerId) : StateM World (Except SessionError Unit) := do
  match ← closeCustodian ((← get).scanner s).custodian (fun e => nomatch e) with
  | .error e => pure (.error (.lifetime e))
  | .ok custodian =>
    modify fun w => w.updateScanner s fun session => { session with custodian }
    pure (.ok ())

/-- Closes a scanner session on behalf of its context, unless it is closed already. -/
def closeTracked (s : ScannerId) : StateM World (Except SessionError Unit) := do
  if ((← get).scanner s).custodian.closed then pure (.ok ()) else closeScanner s

/-! ## Contexts -/

/-- Gives up everything a context holds. -/
def tearDown (c : ContextId) : StateM World (Except LifetimeError Unit) := do
  modify fun w => w.log .span "close_program_context" []
  let before := (← get).context c
  match ← closeCustodian before.custodian closeTracked with
  | .error e => pure (.error e)
  | .ok custodian =>
    modify fun w => w.updateContext c fun cx =>
      { cx with
        custodian, nodes := cx.nodes.clear, types := cx.types.clear,
        symbols := cx.symbols.clear, signatures := cx.signatures.clear }
    modify fun w => w.log .debug "released program context"
      [("handles", toString before.custodian.liveHandles), ("nodes", toString before.nodes.size),
        ("types", toString before.types.size), ("symbols", toString before.symbols.size),
        ("signatures", toString before.signatures.size)]
    pure (.ok ())

/-- Takes one strong reference to a context. -/
def holdContext (c : ContextId) (w : World) : World :=
  w.updateContext c fun cx => { cx with references := cx.references + 1 }

/-- Gives one strong reference back. With the last one, a context that was not closed is torn
down. -/
def dropContext (c : ContextId) (w : World) : World :=
  let w := w.updateContext c fun cx => { cx with references := cx.references - 1 }
  let cx := w.context c
  if cx.references = 0 ∧ ¬cx.custodian.closed then
    let w := w.log .warn "program context dropped without close; releasing handles" []
    (tearDown c w).2
  else
    w

/-! ## Node lists -/

def holdList (l : ListId) (w : World) : World :=
  w.updateList l fun cell => { cell with clones := cell.clones + 1 }

/-- Gives the handle of a list back to its context, if the context is still there and open. A context
whose custodian is `busy` takes no handle back: it is giving up another value at the moment, and the
list goes with that value. Its handle stays. -/
def releaseList (busy : Bool) (l : ListId) (w : World) : World :=
  let cell := w.list l
  let cx := w.context cell.context
  if cx.references = 0 ∨ cx.custodian.closed then
    w
  else if busy then
    w.updateList l fun cell => { cell with left := true }
  else
    match cx.custodian.release cell.handle with
    | .ok custodian => w.updateContext cell.context fun cx => { cx with custodian }
    | .error e => w.log .warn "failed to release handle" [("error", e.message)]

/-- Drops one clone of a list. -/
def dropList (busy : Bool) (l : ListId) (w : World) : World :=
  let w := w.updateList l fun cell => { cell with clones := cell.clones - 1 }
  if (w.list l).clones = 0 then w.releaseList busy l else w

/-- Drops the last clone of a list whose array alone keeps some functions of the host alive. These go with
the array, and so do the clones in `owned` that they own; the custodian is busy meanwhile. -/
def dropListOwning (owned : List ListId) (l : ListId) (w : World) : World :=
  owned.foldl (fun w m => dropList true m w) (dropList false l w)

/-! ## Scanner clones -/

def holdScanner (s : ScannerId) (w : World) : World :=
  w.updateScanner s fun session => { session with clones := session.clones + 1 }

/-- Drops one clone of a scanner session. The last one closes the session, if it is open, and then
gives back its reference to the context. -/
def dropScanner (s : ScannerId) (w : World) : World :=
  let w := w.updateScanner s fun session => { session with clones := session.clones - 1 }
  if (w.scanner s).clones = 0 then
    dropContext (w.scanner s).context (closeTracked s w).2
  else
    w

/-! ## Results -/

mutual

/-- Takes a reference for each thing that a result keeps alive. -/
def hold : Item → World → World
  | .nodeList l, w => holdList l w
  | .context c, w => holdContext c w
  | .scanner s, w => holdScanner s w
  | .list items, w => holdAll items w
  | _, w => w

def holdAll : List Item → World → World
  | [], w => w
  | item :: rest, w => holdAll rest (hold item w)

end

mutual

/-- Gives up a result: each thing that it keeps alive loses one reference. -/
def drop : Item → World → World
  | .nodeList l, w => dropList false l w
  | .context c, w => dropContext c w
  | .scanner s, w => dropScanner s w
  | .list items, w => dropAll items w
  | _, w => w

def dropAll : List Item → World → World
  | [], w => w
  | item :: rest, w => dropAll rest (drop item w)

end

/-! ## Variables -/

/-- Stores a result in a variable and gives up what the variable held. -/
def store (name : String) (item : Item) (w : World) : World :=
  let old := w.bindings.lookup name
  let w := { w with bindings := (name, item) :: w.bindings.filter fun v => v.1 != name }
  match old with
  | some old => drop old w
  | none => w

/-- Removes a variable and gives up what it held. -/
def removeVariable (name : String) (w : World) : World :=
  match w.bindings.lookup name with
  | some old => drop old { w with bindings := w.bindings.filter fun v => v.1 != name }
  | none => w

end World

end ProxySession
