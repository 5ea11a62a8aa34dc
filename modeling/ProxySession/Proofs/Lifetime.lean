import ProxySession.Proofs.Reference
import ProxySession.Proofs.Sums
import ProxySession.Session.Run

/-!
# What ends with what

Taking references, giving them back and closing change only what a session holds, apart from the
log. Here each of these operations of the world is described by an operation on holdings.
-/

namespace ProxySession

/-! ## Operations on holdings -/

/-- The custodian after its closing. -/
def Custodian.shut {ρ : Type} (c : Custodian ρ) : Custodian ρ :=
  { c with slots := #[], resources := [], closed := true }

/-- The session after its closing; a closed one stays as it is. -/
def ScannerSession.shut (s : ScannerSession) : ScannerSession :=
  if s.custodian.closed then s else { s with custodian := s.custodian.shut }

/-- The context after its closing. -/
def Context.shut (cx : Context) : Context :=
  { cx with
    custodian := cx.custodian.shut, nodes := cx.nodes.clear, types := cx.types.clear,
    symbols := cx.symbols.clear, signatures := cx.signatures.clear }

namespace Holdings

def modifyContext (c : ContextId) (f : Context → Context) (h : Holdings) : Holdings :=
  { h with contexts := h.contexts.modify c.index f }

def modifyList (l : ListId) (f : NodeList → NodeList) (h : Holdings) : Holdings :=
  { h with lists := h.lists.modify l.index f }

def modifyScanner (s : ScannerId) (f : ScannerSession → ScannerSession) (h : Holdings) : Holdings :=
  { h with scanners := h.scanners.modify s.index f }

def shutScanner (s : ScannerId) (h : Holdings) : Holdings :=
  h.modifyScanner s ScannerSession.shut

def shutScanners (ss : List ScannerId) (h : Holdings) : Holdings :=
  ss.foldl (fun h s => h.shutScanner s) h

/-- Closes an open context and the scanner sessions that it tracks. -/
def shutContext (c : ContextId) (h : Holdings) : Holdings :=
  if (h.context c).custodian.closed then h
  else (h.shutScanners (h.context c).custodian.resources).modifyContext c Context.shut

def take : Reference → Holdings → Holdings
  | .list l => modifyList l fun cell => { cell with clones := cell.clones + 1 }
  | .context c => modifyContext c fun cx => { cx with references := cx.references + 1 }
  | .scanner s => modifyScanner s fun session => { session with clones := session.clones + 1 }

def giveContext (c : ContextId) (h : Holdings) : Holdings :=
  let h := h.modifyContext c fun cx => { cx with references := cx.references - 1 }
  if (h.context c).references = 0 then h.shutContext c else h

/-- Empties the slot of a list, if its context is still there and open, and its custodian not busy. -/
def releaseList (busy : Bool) (l : ListId) (h : Holdings) : Holdings :=
  let cell := h.list l
  let cx := h.context cell.context
  if cx.references = 0 ∨ cx.custodian.closed then
    h
  else if busy then
    h.modifyList l fun cell => { cell with left := true }
  else
    match cx.custodian.release cell.handle with
    | .ok custodian => h.modifyContext cell.context fun cx => { cx with custodian }
    | .error _ => h

def giveList (busy : Bool) (l : ListId) (h : Holdings) : Holdings :=
  let h := h.modifyList l fun cell => { cell with clones := cell.clones - 1 }
  if (h.list l).clones = 0 then h.releaseList busy l else h

/-- A list goes, and clones that go with its array while the custodian is busy. -/
def giveListOwning (owned : List ListId) (l : ListId) (h : Holdings) : Holdings :=
  owned.foldl (fun h m => h.giveList true m) (h.giveList false l)

def giveScanner (s : ScannerId) (h : Holdings) : Holdings :=
  let h := h.modifyScanner s fun session => { session with clones := session.clones - 1 }
  if (h.scanner s).clones = 0 then (h.shutScanner s).giveContext (h.scanner s).context else h

def giveBack : Reference → Holdings → Holdings
  | .list l => giveList false l
  | .context c => giveContext c
  | .scanner s => giveScanner s

/-! ### What is where -/

theorem context_modifyContext (c d : ContextId) (f : Context → Context) (h : Holdings) :
    (h.modifyContext c f).context d =
      if c = d ∧ d.index < h.contexts.size then f (h.context d) else h.context d := by
  have he : c = d ↔ c.index = d.index := by
    cases c
    cases d
    simp
  simp only [he]
  exact getD_modify h.contexts c.index d.index f

/-- What a change of a context leaves alone stays the same in all of them. -/
theorem same_modifyContext {β : Type} (g : Context → β) (c : ContextId) (h : Holdings)
    {f : Context → Context} (hf : ∀ cx, g (f cx) = g cx) (d : ContextId) :
    g ((h.modifyContext c f).context d) = g (h.context d) := by
  rw [context_modifyContext]
  split
  · exact hf _
  · rfl

theorem list_modifyList (l m : ListId) (f : NodeList → NodeList) (h : Holdings) :
    (h.modifyList l f).list m =
      if l = m ∧ m.index < h.lists.size then f (h.list m) else h.list m := by
  have he : l = m ↔ l.index = m.index := by
    cases l
    cases m
    simp
  simp only [he]
  exact getD_modify h.lists l.index m.index f

theorem scanner_modifyScanner (s t : ScannerId) (f : ScannerSession → ScannerSession)
    (h : Holdings) :
    (h.modifyScanner s f).scanner t =
      if s = t ∧ t.index < h.scanners.size then f (h.scanner t) else h.scanner t := by
  have he : s = t ↔ s.index = t.index := by
    cases s
    cases t
    simp
  simp only [he]
  exact getD_modify h.scanners s.index t.index f

theorem modifyContext_congr {c : ContextId} {h : Holdings} {f g : Context → Context}
    (hf : f (h.context c) = g (h.context c)) : h.modifyContext c f = h.modifyContext c g := by
  simp only [modifyContext]
  rw [modify_congr hf]

theorem modifyScanner_congr {s : ScannerId} {h : Holdings} {f g : ScannerSession → ScannerSession}
    (hf : f (h.scanner s) = g (h.scanner s)) : h.modifyScanner s f = h.modifyScanner s g := by
  simp only [modifyScanner]
  rw [modify_congr hf]

theorem shutScanner_of_closed {s : ScannerId} {h : Holdings}
    (hs : (h.scanner s).custodian.closed = true) : h.shutScanner s = h := by
  have hf : (h.scanner s).shut = h.scanner s := by simp [ScannerSession.shut, hs]
  simp only [shutScanner, modifyScanner]
  rw [modify_eq_self hf]

@[simp] theorem shutScanners_contexts (ss : List ScannerId) (h : Holdings) :
    (h.shutScanners ss).contexts = h.contexts := by
  induction ss generalizing h with
  | nil => rfl
  | cons s rest ih => exact ih (h.shutScanner s)

@[simp] theorem shutScanners_lists (ss : List ScannerId) (h : Holdings) :
    (h.shutScanners ss).lists = h.lists := by
  induction ss generalizing h with
  | nil => rfl
  | cons s rest ih => exact ih (h.shutScanner s)

end Holdings

/-! ## The world holds what these operations say -/

namespace World

/-- A world that differs from another one in its holdings at most, apart from the heap and the
records of crossings and events. -/
structure Becomes (w w' : World) (h : Holdings) : Prop where
  holdings : w'.toHoldings = h
  history : w'.history = w.history

theorem Becomes.refl (w : World) : w.Becomes w w.toHoldings := ⟨rfl, rfl⟩

theorem Becomes.trans {w w' w'' : World} {h h' : Holdings} (h₁ : w.Becomes w' h)
    (h₂ : w'.Becomes w'' h') : w.Becomes w'' h' :=
  ⟨h₂.holdings, h₂.history.trans h₁.history⟩

section Close

theorem bind_apply {α β : Type} (x : StateM World α) (f : α → StateM World β) (w : World) :
    (x >>= f) w = f (x w).1 (x w).2 := rfl

theorem get_apply (w : World) : (get : StateM World World) w = (w, w) := rfl

variable {ρ : Type} {close : ρ → StateM World (Except SessionError Unit)}
  {f : ρ → Holdings → Holdings}

/-- Closing resources one by one changes the holdings for each of them in order. -/
theorem closeResources_becomes (report : Nat → SessionError → StateM World Unit)
    (hreport : ∀ i e, ∀ w : World, w.Becomes (report i e w).2 w.toHoldings)
    (hclose : ∀ r, ∀ w : World, w.Becomes (close r w).2 (f r w.toHoldings)) :
    (rs : List ρ) → (i : Nat) → (w : World) →
      w.Becomes (Custodian.closeResources close report i rs w).2
        (rs.foldl (fun h r => f r h) w.toHoldings)
  | [], _, w => .refl w
  | r :: rest, i, w => by
    rw [Custodian.closeResources, bind_apply, List.foldl_cons]
    have hr := hclose r w
    cases (close r w).1 with
    | ok u =>
      have ih := closeResources_becomes report hreport hclose rest (i + 1) (close r w).2
      rw [hr.holdings] at ih
      exact hr.trans ih
    | error e =>
      have he := hreport i e (close r w).2
      have ih := closeResources_becomes report hreport hclose rest (i + 1) (report i e (close r w).2).2
      rw [he.holdings, hr.holdings] at ih
      exact (hr.trans he).trans ih

theorem closeCustodian_of_closed {custodian : Custodian ρ} (h : custodian.closed = true)
    (w : World) : closeCustodian custodian close w = (.error (.closedTwice custodian.name), w) := by
  rw [closeCustodian, bind_apply, Custodian.close, if_pos h]
  rfl

/-- An open custodian closes, whatever its resources do. -/
theorem closeCustodian_of_open {custodian : Custodian ρ} (h : custodian.closed = false)
    (hclose : ∀ r, ∀ w : World, w.Becomes (close r w).2 (f r w.toHoldings)) (w : World) :
    (closeCustodian custodian close w).1 = .ok custodian.shut ∧
      w.Becomes (closeCustodian custodian close w).2
        (custodian.resources.foldl (fun h r => f r h) w.toHoldings) := by
  rw [closeCustodian, bind_apply, Custodian.close, if_neg (by simp [h]), bind_apply]
  refine ⟨rfl, ?_⟩
  have hr := closeResources_becomes (fun index e => modify fun w =>
    w.log .warn "failed to close tracked resource"
      [("holder", custodian.name), ("index", toString index), ("error", e.message)])
    (fun _ _ _ => ⟨rfl, rfl⟩) hclose custodian.resources 0 w
  exact ⟨hr.holdings, hr.history⟩

end Close

/-! ## Scanner sessions and contexts -/

theorem closeScanner_of_closed {s : ScannerId} {w : World}
    (h : (w.scanner s).custodian.closed = true) :
    closeScanner s w = (.error (.lifetime (.closedTwice (w.scanner s).custodian.name)), w) := by
  simp only [closeScanner, bind_apply, get_apply, closeCustodian_of_closed h]
  rfl

theorem closeScanner_of_open {s : ScannerId} {w : World}
    (h : (w.scanner s).custodian.closed = false) :
    (closeScanner s w).1 = .ok () ∧
      w.Becomes (closeScanner s w).2 (w.toHoldings.shutScanner s) := by
  have hrun (close : Empty → StateM World (Except SessionError Unit)) :
      (closeCustodian (w.scanner s).custodian close w).1 = .ok (w.scanner s).custodian.shut ∧
        w.Becomes (closeCustodian (w.scanner s).custodian close w).2
          ((w.scanner s).custodian.resources.foldl (fun h _ => h) w.toHoldings) :=
    closeCustodian_of_open h (fun e => nomatch e) w
  simp only [closeScanner, bind_apply, get_apply, fun close => (hrun close).1]
  refine ⟨rfl, ?_, (hrun _).2.history⟩
  have hw (close : Empty → StateM World (Except SessionError Unit)) :
      (closeCustodian (w.scanner s).custodian close w).2.toHoldings = w.toHoldings := by
    rw [(hrun close).2.holdings, List.foldl_fixed]
  have hm : w.toHoldings.modifyScanner s (fun session =>
      { session with custodian := (w.scanner s).custodian.shut }) =
        w.toHoldings.shutScanner s := by
    apply Holdings.modifyScanner_congr
    simp [ScannerSession.shut, h]
  rw [← hm]
  exact congrArg (Holdings.modifyScanner s _) (hw _)

theorem closeTracked_becomes (s : ScannerId) (w : World) :
    w.Becomes (closeTracked s w).2 (w.toHoldings.shutScanner s) := by
  have hrun : closeTracked s w = (if (w.scanner s).custodian.closed then pure (.ok ())
    else closeScanner s) w := rfl
  by_cases h : (w.scanner s).custodian.closed = true
  · rw [hrun, if_pos h, Holdings.shutScanner_of_closed h]
    exact .refl w
  · rw [hrun, if_neg h]
    exact (closeScanner_of_open (by simpa using h)).2

theorem tearDown_of_closed {c : ContextId} {w : World}
    (h : (w.context c).custodian.closed = true) :
    tearDown c w =
      (.error (.closedTwice (w.context c).custodian.name),
        w.log .span "close_program_context" []) := by
  simp only [tearDown, bind_apply]
  rw [closeCustodian_of_closed (by exact h)]
  rfl

theorem tearDown_of_open {c : ContextId} {w : World}
    (h : (w.context c).custodian.closed = false) :
    (tearDown c w).1 = .ok () ∧ w.Becomes (tearDown c w).2 (w.toHoldings.shutContext c) := by
  have hw := (closeCustodian_of_open h closeTracked_becomes
    (w.log .span "close_program_context" [])).2
  simp only [tearDown, bind_apply]
  rw [(closeCustodian_of_open (by exact h) closeTracked_becomes _).1]
  refine ⟨rfl, ?_, hw.history⟩
  have hm : (w.toHoldings.shutScanners (w.context c).custodian.resources).modifyContext c
      (fun cx => { cx with
        custodian := (w.context c).custodian.shut, nodes := cx.nodes.clear
        types := cx.types.clear, symbols := cx.symbols.clear
        signatures := cx.signatures.clear }) = w.toHoldings.shutContext c := by
    rw [Holdings.shutContext, if_neg (by simp [h])]
    apply Holdings.modifyContext_congr
    rw [Holdings.context, Holdings.shutScanners_contexts]
    rfl
  rw [← hm]
  exact congrArg (Holdings.modifyContext c _) hw.holdings

/-! ## References -/

theorem take_becomes (r : Reference) (w : World) : w.Becomes (take r w) (w.toHoldings.take r) := by
  cases r <;> exact ⟨rfl, rfl⟩

theorem tearDown_becomes (c : ContextId) (w : World) :
    w.Becomes (tearDown c w).2 (w.toHoldings.shutContext c) := by
  cases h : (w.context c).custodian.closed with
  | true =>
    rw [tearDown_of_closed h, Holdings.shutContext, if_pos h]
    exact ⟨rfl, rfl⟩
  | false => exact (tearDown_of_open h).2

theorem closeScanner_becomes (s : ScannerId) (w : World) :
    w.Becomes (closeScanner s w).2 (w.toHoldings.shutScanner s) := by
  cases h : (w.scanner s).custodian.closed with
  | true =>
    rw [closeScanner_of_closed h, Holdings.shutScanner_of_closed h]
    exact .refl w
  | false => exact (closeScanner_of_open h).2

/-- A reference that was taken is lowered again. -/
theorem lower_hold (c : ContextId) (w : World) : (holdContext c w).updateContext c
    (fun cx => { cx with references := cx.references - 1 }) = w := by
  have hself : (w.contexts.modify c.index fun cx => { cx with references := cx.references + 1 }).modify
      c.index (fun cx => { cx with references := cx.references - 1 }) = w.contexts := by
    apply Array.ext
    · simp
    · intro j _ _
      simp only [Array.getElem_modify]
      split <;> rfl
  exact congrArg (fun cs => { w with contexts := cs }) hself

/-- Keeping a context alive for a while leaves no trace, unless it was given up before. -/
theorem drop_hold {c : ContextId} {w : World}
    (h : (w.context c).references = 0 → (w.context c).custodian.closed = true) :
    dropContext c (holdContext c w) = w := by
  have hback := lower_hold c w
  have hlowered : dropContext c (holdContext c w) = (holdContext c w).updateContext c
      (fun cx => { cx with references := cx.references - 1 }) := if_neg fun hn => by
    rw [hback] at hn
    exact hn.2 (h hn.1)
  rw [hlowered, hback]

theorem dropContext_becomes (c : ContextId) (w : World) :
    w.Becomes (dropContext c w) (w.toHoldings.giveContext c) := by
  let f (cx : Context) : Context := { cx with references := cx.references - 1 }
  by_cases hr : ((w.toHoldings.modifyContext c f).context c).references = 0
  · have hg : w.toHoldings.giveContext c = (w.toHoldings.modifyContext c f).shutContext c :=
      if_pos hr
    rw [hg]
    by_cases hc : ((w.toHoldings.modifyContext c f).context c).custodian.closed = true
    · have hd : dropContext c w = w.updateContext c f := if_neg fun h => h.2 hc
      rw [hd, Holdings.shutContext, if_pos hc]
      exact ⟨rfl, rfl⟩
    · have hd : dropContext c w = (tearDown c ((w.updateContext c f).log .warn
          "program context dropped without close; releasing handles" [])).2 := if_pos ⟨hr, hc⟩
      have ht := tearDown_becomes c ((w.updateContext c f).log .warn
        "program context dropped without close; releasing handles" [])
      rw [hd]
      exact ⟨ht.holdings, ht.history⟩
  · have hg : w.toHoldings.giveContext c = w.toHoldings.modifyContext c f := if_neg hr
    have hd : dropContext c w = w.updateContext c f := if_neg fun h => hr h.1
    rw [hg, hd]
    exact ⟨rfl, rfl⟩

theorem releaseList_becomes (busy : Bool) (l : ListId) (w : World) :
    w.Becomes (releaseList busy l w) (w.toHoldings.releaseList busy l) := by
  simp only [releaseList, Holdings.releaseList]
  split
  · exact .refl w
  split
  · exact ⟨rfl, rfl⟩
  · cases (w.context (w.list l).context).custodian.release (w.list l).handle <;> exact ⟨rfl, rfl⟩

theorem dropList_becomes (busy : Bool) (l : ListId) (w : World) :
    w.Becomes (dropList busy l w) (w.toHoldings.giveList busy l) := by
  let f (cell : NodeList) : NodeList := { cell with clones := cell.clones - 1 }
  by_cases h : ((w.toHoldings.modifyList l f).list l).clones = 0
  · have hg : w.toHoldings.giveList busy l = (w.toHoldings.modifyList l f).releaseList busy l := if_pos h
    have hd : dropList busy l w = releaseList busy l (w.updateList l f) := if_pos h
    have hr := releaseList_becomes busy l (w.updateList l f)
    rw [hg, hd]
    exact ⟨hr.holdings, hr.history⟩
  · have hg : w.toHoldings.giveList busy l = w.toHoldings.modifyList l f := if_neg h
    have hd : dropList busy l w = w.updateList l f := if_neg h
    rw [hg, hd]
    exact ⟨rfl, rfl⟩

/-- Clones go one after the other while the custodian is busy. -/
theorem dropLists_becomes : (owned : List ListId) → (w : World) →
    w.Becomes (owned.foldl (fun w m => dropList true m w) w)
      (owned.foldl (fun h m => h.giveList true m) w.toHoldings)
  | [], w => .refl w
  | m :: rest, w => by
    have hm := dropList_becomes true m w
    have ih := dropLists_becomes rest (dropList true m w)
    rw [hm.holdings] at ih
    exact hm.trans ih

theorem dropListOwning_becomes (owned : List ListId) (l : ListId) (w : World) :
    w.Becomes (dropListOwning owned l w) (w.toHoldings.giveListOwning owned l) := by
  have hl := dropList_becomes false l w
  have hrest := dropLists_becomes owned (dropList false l w)
  rw [hl.holdings] at hrest
  exact hl.trans hrest

theorem dropScanner_becomes (s : ScannerId) (w : World) :
    w.Becomes (dropScanner s w) (w.toHoldings.giveScanner s) := by
  let f (session : ScannerSession) : ScannerSession := { session with clones := session.clones - 1 }
  by_cases h : ((w.toHoldings.modifyScanner s f).scanner s).clones = 0
  · have hg : w.toHoldings.giveScanner s =
        ((w.toHoldings.modifyScanner s f).shutScanner s).giveContext
          ((w.toHoldings.modifyScanner s f).scanner s).context := if_pos h
    have hd : dropScanner s w = dropContext ((w.updateScanner s f).scanner s).context
        (closeTracked s (w.updateScanner s f)).2 := if_pos h
    have hs := closeTracked_becomes s (w.updateScanner s f)
    have hc := dropContext_becomes ((w.updateScanner s f).scanner s).context
      (closeTracked s (w.updateScanner s f)).2
    rw [hs.holdings] at hc
    rw [hg, hd]
    exact ⟨hc.holdings, hc.history.trans hs.history⟩
  · have hg : w.toHoldings.giveScanner s = w.toHoldings.modifyScanner s f := if_neg h
    have hd : dropScanner s w = w.updateScanner s f := if_neg h
    rw [hg, hd]
    exact ⟨rfl, rfl⟩

theorem giveBack_becomes (r : Reference) (w : World) :
    w.Becomes (giveBack r w) (w.toHoldings.giveBack r) := by
  cases r with
  | list l => exact dropList_becomes false l w
  | context c => exact dropContext_becomes c w
  | scanner s => exact dropScanner_becomes s w

end World

end ProxySession
