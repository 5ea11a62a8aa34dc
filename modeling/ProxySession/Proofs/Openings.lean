import ProxySession.Proofs.TypeAccessors
import ProxySession.Session.Scanning
import ProxySession.Session.Bootstrap

/-!
# Opening and closing as progress

The caller owns a scanner session or a context that it opens. What closes owns nothing.
-/

namespace ProxySession

open Effect

variable {kept : List Reference} {α : Type}

/-! ## Scanner sessions -/

@[grind ←] theorem toOffset_neutral (n : Int32) : (toOffset n).Neutral kept := by
  unfold toOffset
  grind

namespace ScannerId

variable (s : ScannerId)

@[grind ←] theorem object_neutral :
    (s.object).Neutral kept := by
  unfold object
  grind

@[grind ←] theorem call_neutral (method : String) {convert : ContextId → Conversion α}
    (hc : ∀ c v, (convert c v).Neutral kept) :
    (s.call method convert).Neutral kept := by
  unfold call
  grind

@[grind ←] theorem reset_neutral (position : UInt32) :
    (s.reset position).Neutral kept := by
  unfold reset
  grind

@[grind ←] theorem scanNext_neutral :
    (s.scanNext).Neutral kept := by
  unfold scanNext
  grind

@[grind ←] theorem tokenStart_neutral : s.tokenStart.Neutral kept :=
  Neutral.bind (s.call_neutral "getTokenStart" fun _ v => (Conversion.toInt32_foreignActs v).neutral)
    toOffset_neutral

@[grind ←] theorem tokenEnd_neutral : s.tokenEnd.Neutral kept :=
  Neutral.bind (s.call_neutral "getTokenEnd" fun _ v => (Conversion.toInt32_foreignActs v).neutral)
    toOffset_neutral

@[grind ←] theorem tokenText_neutral :
    (s.tokenText).Neutral kept := by
  unfold tokenText
  grind

@[grind ←] theorem tokenAt_neutral (position : UInt32) :
    (s.tokenAt position).Neutral kept := by
  unfold tokenAt
  grind

@[grind ←] theorem close_neutral : s.close.Neutral kept := by
  have hact : (act (World.closeScanner s) : Operation _).Neutral kept :=
    fun _ _ _ w _ =>
      .change (.shutScanner s) (World.closeScanner_turns s w) (.of_contexts rfl rfl) (.shutScanner s _)
  unfold close
  grind

end ScannerId

namespace ContextId

variable (c : ContextId)

@[grind ←] theorem newScannerObject_neutral (text : String) :
    (c.newScannerObject text).Neutral kept := by
  unfold newScannerObject
  grind

theorem newSession_of_closed (text : String) (r : ObjectRef) (E : Engine) {w : World}
    (h : (w.context c).custodian.closed = true) :
    c.newSession text r E w = (.error (.failed (.lifetime
      (.retainAfterClose (w.context c).custodian.name))), w) := by
  have ht (finished : ScannerId → Bool) (s : ScannerId) :
      (w.context c).custodian.track finished s =
        .error (.retainAfterClose (w.context c).custodian.name) := if_pos h
  simp only [newSession, bind_eq, world, ht]
  rfl

theorem newSession_of_open (text : String) (r : ObjectRef) (E : Engine) {w : World}
    (h : (w.context c).custodian.closed = false) :
    ∃ w', c.newSession text r E w = (.ok ⟨w.scanners.size⟩, w') ∧
      w.Turns w' (w.toHoldings.openSession c text r) := by
  have ht (finished : ScannerId → Bool) (s : ScannerId) :
      (w.context c).custodian.track finished s = .ok { (w.context c).custodian with
        resources := (w.context c).custodian.resources.filter (fun r => !finished r) ++ [s] } :=
    if_neg (by simp [h])
  simp only [newSession, bind_eq, world, ht]
  refine ⟨_, rfl, ⟨?_, rfl⟩, .holdings w _⟩
  exact congrArg (Holdings.take (.context c)) (Holdings.modifyContext_congr rfl)

theorem newSession_gives (hc : .context c ∈ kept) (text : String) (r : ObjectRef) :
    (c.newSession text r).Gives kept fun s => {.scanner s} := by
  intro w E _ F hF
  rw [zero_add]
  cases ho : (w.context c).custodian.closed with
  | true =>
    rw [newSession_of_closed c text r E ho, owned, zero_add]
    exact .refl
  | false =>
    obtain ⟨w', hr, hw⟩ := newSession_of_open c text r E ho
    rw [hr]
    exact .change (.openSession text r (hF _ hc) ho) hw (.openSession c text r _) (.openSession c text r _)

theorem scanner_gives (hc : .context c ∈ kept) (text : String) :
    (c.scanner text).Gives kept fun s => {.scanner s} := by
  refine Gives.bind (c.newScannerObject_neutral text) fun r => ?_
  refine Gives.bind_onStop (newSession_gives c hc text r)
    (fun s => (s.reset_neutral 0).gives_nothing) ?_ fun s _ => ?_
  · intro s w F
    exact .giveBack (.scanner s) w
  · rw [add_zero]
    have hs : (pure s : Operation ScannerId).Transfers kept {.scanner s} fun s => {.scanner s} :=
      fun _ _ _ _ _ => .refl
    exact Transfers.bind (Transfers.change_still fun _ =>
      ⟨rfl, rfl, rfl, .refl _, (World.Tacit.log rfl _).warnings, rfl, List.prefix_rfl,
        .of_same rfl rfl rfl⟩) fun _ => hs

/-! ## The program -/

@[grind ←] theorem program_neutral :
    (c.program).Neutral kept := by
  unfold program
  grind

@[grind ←] theorem sourceFiles_neutral (hc : .context c ∈ kept) :
    (c.sourceFiles).Neutral kept := by
  unfold sourceFiles
  grind

@[grind ←] theorem sourceFile_neutral (hc : .context c ∈ kept) (name : String) :
    (c.sourceFile name).Neutral kept := by
  unfold sourceFile
  grind

@[grind ←] theorem close_neutral : c.close.Neutral kept := by
  have hact : (act (World.tearDown c) : Operation _).Neutral kept :=
    fun _ _ _ _ _ => .tearDown c
  unfold close
  grind

end ContextId

/-! ## Contexts -/

namespace Bootstrap

@[grind ←] theorem foreign_neutral {x : Eval α} (hx : x.Neutral kept) :
    (foreign x).Neutral kept := by
  unfold foreign
  grind

@[grind ←] theorem field_neutral (r : ObjectRef) (name : String) :
    (field r name).Neutral kept := by
  unfold field
  grind

@[grind ←] theorem functionField_neutral (r : ObjectRef) (name : String) :
    (functionField r name).Neutral kept := by
  unfold functionField
  grind

@[grind ←] theorem objectField_neutral (r : ObjectRef) (name : String) :
    (objectField r name).Neutral kept := by
  unfold objectField
  grind

@[grind ←] theorem required_neutral (name : String) {x : Operation (Option α)} (hx : x.Neutral kept) :
    (required name x).Neutral kept := by
  unfold required
  grind

@[grind ←] theorem checkerOf_neutral (parse program : ObjectRef) :
    (checkerOf parse program).Neutral kept := by
  unfold checkerOf
  grind

@[grind ←] theorem kindEntries_neutral (r : ObjectRef) (keys : List PropertyKey) :
    (kindEntries r keys).Neutral kept := by
  induction keys with
  | nil => exact Neutral.pure []
  | cons key rest ih =>
    cases key with
    | symbol _ => exact ih
    | text key =>
      unfold kindEntries
      extract_lets tail
      have htail (name : String) : (tail name).Neutral kept := by
        unfold tail
        grind
      clear_value tail
      grind

@[grind ←] theorem kindTable_neutral (r : ObjectRef) :
    (kindTable r).Neutral kept := by
  unfold kindTable
  grind

@[grind ←] theorem parts_neutral (parse : ObjectRef) :
    (parts parse).Neutral kept := by
  unfold parts
  refine Neutral.bind (required_neutral _ (objectField_neutral parse _)) fun program => ?_
  refine Neutral.bind (checkerOf_neutral parse program) fun checker => ?_
  refine Neutral.bind (required_neutral _ (functionField_neutral parse _)) fun factory => ?_
  grind

end Bootstrap

/-- The caller owns the one reference to a new context. Its numbering and its token source are there
before it is. -/
theorem ContextId.open_gives (parse : ObjectRef) (rules : IdentityRules) :
    (ContextId.open parse rules).Gives kept fun c => {.context c} := by
  refine Gives.bind (Bootstrap.parts_neutral parse) fun p => ?_
  intro w E _ F _
  rw [zero_add]
  let source : Object := { label := none, kind := .tokenSource w.numberings.size, properties := [] }
  let token : Value := .object (w.heap.alloc source).1
  have hsource : Headway F w F (Bootstrap.newIdentityToken (ε := SessionError) E w).2 :=
    .still ⟨rfl, rfl⟩ ⟨.alloc _ _, rfl, .refl _⟩ rfl List.prefix_rfl (.of_same rfl rfl rfl)
  refine ⟨hsource.trans (.change (.openContext p token rules)
    ⟨⟨rfl, rfl⟩, ⟨rfl, List.prefix_rfl⟩, (World.Tacit.log rfl _).warnings⟩ (.openContext rfl _)
      (.openContext _ _)), fun ht => ht.opened p token rules rfl ?_
        (.alloc _ source) rfl rfl⟩
  have htoken : (w.heap.alloc source).2.tokenSource? token = some w.numberings.size := by
    simp [Heap.tokenSource?, Heap.object, Heap.alloc, token, source]
  exact htoken.trans (congrArg some ht.size)

end ProxySession
