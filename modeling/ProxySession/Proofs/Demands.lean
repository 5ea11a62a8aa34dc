import ProxySession.Proofs.Resurfacing
import ProxySession.Session.Bootstrap

/-!
# What a parse result has to provide

A context is opened by asking for one thing after the other, each of which has to be an object or a
function; the checker may be absent, and then the program is asked to make one. The first answer that
does not meet its demand is the error, and nothing is asked after it.
-/

namespace ProxySession

open Effect

/-! ## Runs of effects -/

theorem Effect.located_bind {α β : Type} (site : String) (x : Operation α) (f : α → Operation β) :
    (x >>= f).located site = x.located site >>= fun a => (f a).located site := by
  funext E w
  rw [located_eq, bind_eq, bind_eq, located_eq]
  rcases x E w with ⟨_ | a, w'⟩
  · rfl
  · change _ = (f a).located site E w'
    rw [located_eq]

def Value.object? : Value → Option ObjectRef
  | object r => some r
  | _ => none

namespace Bootstrap

/-! ## Demands -/

/-- What is asked for. The program is asked for the function that makes a checker, and this one for the
checker. -/
inductive Demand where
  | program | checker | getTypeChecker | typeChecker | createScanner | getNodeId | forEachChild
  | syntaxKinds
deriving DecidableEq

namespace Demand

/-- Where an answer that cannot be had or has the wrong shape is located. -/
def site : Demand → String
  | program => "program"
  | checker => "checker"
  | getTypeChecker => "getTypeChecker"
  | typeChecker => "program.getTypeChecker"
  | createScanner => "createScanner"
  | getNodeId => "getNodeId"
  | forEachChild => "forEachChild"
  | syntaxKinds => "syntaxKinds"

/-- Where an absent answer is located. -/
def absenceSite : Demand → String
  | getTypeChecker => "program.getTypeChecker"
  | d => d.site

/-- Whether nothing will do as well. -/
def isOptional : Demand → Bool
  | checker | forEachChild => true
  | _ => false

/-- Whether a function is asked for; if not, it is an object. -/
def isFunction : Demand → Bool
  | getTypeChecker | createScanner | getNodeId | forEachChild => true
  | _ => false

/-- The answer has the shape that is asked for, or is not needed. -/
def accepts (d : Demand) (h : Heap) (v : Value) : Bool :=
  (d.isOptional && v.isAbsent) || if d.isFunction then h.isFunction v else v.object?.isSome

/-- The error of an answer that is not accepted. What a call gives is never missing, it only has the wrong
shape. -/
def violation (d : Demand) (h : Heap) (v : Value) : SessionError :=
  if v.isAbsent && d != typeChecker then
    .located d.absenceSite .missingValue
  else
    .located d.site (.shapeMismatch (if d.isFunction then "function" else "object") (h.typeName v))

/-- What is asked for after an answer that was accepted. -/
def next (v : Value) : Demand → Option Demand
  | program => some checker
  | checker => some (if v.isAbsent then getTypeChecker else createScanner)
  | getTypeChecker => some typeChecker
  | typeChecker => some createScanner
  | createScanner => some getNodeId
  | getNodeId => some forEachChild
  | forEachChild => some syntaxKinds
  | syntaxKinds => none

/-- How many demands may follow, at most. -/
def rank : Demand → Nat
  | program => 7
  | checker => 6
  | getTypeChecker => 5
  | typeChecker => 4
  | createScanner => 3
  | getNodeId => 2
  | forEachChild => 1
  | syntaxKinds => 0

theorem next_rank (d : Demand) (v : Value) : ((d.next v).elim 0 fun d => d.rank + 1) < d.rank + 1 := by
  cases d with
  | checker =>
    rw [next]
    split <;> decide
  | _ => simp [next, rank]

end Demand

/-! ## Transcripts -/

/-- The demands that were met so far with their answers. -/
abbrev Transcript := List (Demand × Value)

namespace Transcript

def answer (t : Transcript) (d : Demand) : Value := (t.lookup d).getD .undefined

def object (t : Transcript) (d : Demand) : ObjectRef := (t.answer d).object?.getD default

/-- The parts that the answers provide. -/
def parts (t : Transcript) (kinds : KindTable) : Parts where
  program := t.object .program
  checker := if (t.answer .checker).isAbsent then t.object .typeChecker else t.object .checker
  scannerFactory := t.answer .createScanner
  nodeId := t.answer .getNodeId
  forEachChild := if (t.answer .forEachChild).isAbsent then none else some (t.answer .forEachChild)
  kinds := kinds

end Transcript

/-- The foreign code behind a demand: a read of the parse result, one of the program, or the call for a
checker with the program as its receiver. -/
def inquiry (parse : ObjectRef) (t : Transcript) : Demand → Eval Value
  | .getTypeChecker => Eval.getProperty (t.object .program) (.ofString "getTypeChecker")
  | .typeChecker => Eval.callValue (t.answer .getTypeChecker) (t.answer .program) []
  | d => Eval.getProperty parse (.ofString d.site)

/-- Accepts an answer or tells what is wrong with it. -/
def check (d : Demand) (v : Value) : Operation Value := do
  let h := (← world).heap
  if d.accepts h v then pure v else fail (d.violation h v)

/-- Asks for an answer. -/
def ask (parse : ObjectRef) (t : Transcript) (d : Demand) : Operation Value :=
  (foreign (inquiry parse t d)).located d.site >>= check d

/-- Asks for all that is still to be asked for, and puts the parts together. -/
def inquire (parse : ObjectRef) (t : Transcript) : Option Demand → Operation Parts
  | none => t.parts <$> (kindTable (t.object .syntaxKinds)).located "syntaxKinds"
  | some d => ask parse t d >>= fun v => inquire parse (t ++ [(d, v)]) (d.next v)
termination_by o => o.elim 0 fun d => d.rank + 1
decreasing_by exact d.next_rank v

/-! ## The parts of a parse result -/

variable {r parse : ObjectRef} {t : Transcript} {E : Engine} {w : World}

theorem check_run (d : Demand) (v : Value) (E : Engine) (w : World) : check d v E w =
    (if d.accepts w.heap v then .ok v else .error (.failed (d.violation w.heap v)), w) := by
  rw [check, world_bind]
  split <;> rfl

/-- What becomes of a value where an object is wanted. -/
theorem object_run (name : String) (v : Value) (E : Engine) (w : World) :
    (Conversion.nullable (Operation.object "object") v).located name E w =
      (if v.isAbsent then .ok none
        else match v.object? with
          | some r => .ok (some r)
          | none => .error (.failed (.located name (.shapeMismatch "object" (w.heap.typeName v)))), w) := by
  cases v <;> rfl

/-- What becomes of a value where a function is wanted. -/
theorem function_run (name : String) (v : Value) (E : Engine) (w : World) :
    (Conversion.nullable Operation.function v).located name E w =
      (if v.isAbsent then .ok none
        else if w.heap.isFunction v then .ok (some v)
        else .error (.failed (.located name (.shapeMismatch "function" (w.heap.typeName v)))), w) := by
  rw [Conversion.nullable, located_eq]
  split
  · rfl
  · rw [map_eq, Operation.function, world_bind]
    split <;> rfl

/-- A field is asked for and then looked at. -/
theorem bind_field {α : Type} {name : String} {f g : Value → Operation α}
    (h : ∀ v w, f v E w = g v E w) : (field r name >>= f) E w = (field r name >>= g) E w := by
  rcases hread : field r name E w with ⟨s | v, w₁⟩
  · rw [bind_of_error hread, bind_of_error hread]
  · rw [bind_of_ok hread, bind_of_ok hread, h]

theorem required_object (r : ObjectRef) {d : Demand} (hf : d.isFunction = false)
    (ho : d.isOptional = false) (hs : d.absenceSite = d.site) (ht : d ≠ .typeChecker) :
    required d.site (objectField r d.site) =
      (fun v => v.object?.getD default) <$> (field r d.site >>= check d) := by
  have hleft : required d.site (objectField r d.site) = field r d.site >>= fun v =>
      required d.site ((Conversion.nullable (Operation.object "object") v).located d.site) := by
    rw [required, objectField, bind_assoc]
    rfl
  rw [hleft, map_of_bind]
  funext E w
  refine bind_field fun v w => ?_
  rw [required, bind_eq, object_run, map_eq, check_run]
  cases v <;> simp [Demand.accepts, Demand.violation, hf, ho, hs, ht, Value.object?, Value.isAbsent] <;> rfl

theorem required_function (r : ObjectRef) {d : Demand} (hf : d.isFunction = true)
    (ho : d.isOptional = false) (ht : d ≠ .typeChecker) :
    required d.absenceSite (functionField r d.site) = field r d.site >>= check d := by
  have hleft : required d.absenceSite (functionField r d.site) = field r d.site >>= fun v =>
      required d.absenceSite ((Conversion.nullable Operation.function v).located d.site) := by
    rw [required, functionField, bind_assoc]
    rfl
  rw [hleft]
  funext E w
  refine bind_field fun v w => ?_
  rw [required, bind_eq, function_run, check_run]
  have habsent : v.isAbsent = true → w.heap.isFunction v = false := by
    cases v <;> simp [Value.isAbsent, Heap.isFunction, Heap.callable?]
  rcases ha : v.isAbsent with _ | _
  · rcases hv : w.heap.isFunction v with _ | _
    · simp [Demand.accepts, Demand.violation, hf, ho, ha, hv]
    · simp [Demand.accepts, hf, ho, hv]
      rfl
  · simp [Demand.accepts, Demand.violation, hf, ho, ha, habsent ha, ht]
    rfl

theorem objectField_checker (r : ObjectRef) :
    objectField r "checker" = Value.object? <$> (field r "checker" >>= check .checker) := by
  rw [objectField, map_of_bind]
  funext E w
  refine bind_field fun v w => ?_
  rw [object_run, map_eq, check_run]
  cases v <;> simp [Demand.accepts, Demand.violation, Demand.isOptional, Demand.isFunction, Demand.site,
    Value.object?, Value.isAbsent] <;> rfl

theorem functionField_forEachChild (r : ObjectRef) : functionField r "forEachChild" =
    (fun v => if v.isAbsent then none else some v) <$>
      (field r "forEachChild" >>= check .forEachChild) := by
  rw [functionField, map_of_bind]
  funext E w
  refine bind_field fun v w => ?_
  rw [function_run, map_eq, check_run]
  rcases ha : v.isAbsent with _ | _
  · rcases hv : w.heap.isFunction v with _ | _
    · simp [Demand.accepts, Demand.violation, Demand.isOptional, Demand.isFunction, Demand.site, ha, hv]
      rfl
    · simp [Demand.accepts, Demand.isFunction, ha, hv, Except.map]
  · simp [Demand.accepts, Demand.isOptional, ha, Except.map]

/-- The checker that a program makes. -/
theorem madeChecker (x : Operation Value) :
    Effect.located "program.getTypeChecker" (x >>= Operation.object "object") =
      (fun v => v.object?.getD default) <$>
        (x.located "program.getTypeChecker" >>= check .typeChecker) := by
  rw [located_bind, map_of_bind]
  funext E w
  rcases hread : x.located "program.getTypeChecker" E w with ⟨s | v, w₁⟩
  · rw [bind_of_error hread, bind_of_error hread]
  · rw [bind_of_ok hread, bind_of_ok hread, map_eq, check_run]
    cases v <;> rfl

theorem inquire_some (parse : ObjectRef) (t : Transcript) (d : Demand) : inquire parse t (some d) =
    ask parse t d >>= fun v => inquire parse (t ++ [(d, v)]) (d.next v) := by
  rw [inquire]

theorem inquire_none (parse : ObjectRef) (t : Transcript) : inquire parse t none =
    t.parts <$> (kindTable (t.object .syntaxKinds)).located "syntaxKinds" := by
  rw [inquire]

/-- What is read once there is a checker. -/
def partsFrom (parse program checker : ObjectRef) : Operation Parts := do
  let scannerFactory ← required "createScanner" (functionField parse "createScanner")
  let nodeId ← required "getNodeId" (functionField parse "getNodeId")
  let forEachChild ← functionField parse "forEachChild"
  let kindsObject ← required "syntaxKinds" (objectField parse "syntaxKinds")
  let kinds ← (kindTable kindsObject).located "syntaxKinds"
  pure { program, checker, scannerFactory, nodeId, forEachChild, kinds }

/-- The transcript has no answer yet to what is asked for after the checker. -/
def Transcript.Short (t : Transcript) : Prop :=
  t.lookup .createScanner = none ∧ t.lookup .getNodeId = none ∧ t.lookup .forEachChild = none ∧
    t.lookup .syntaxKinds = none

theorem partsFrom_eq (parse : ObjectRef) {t : Transcript} (ht : t.Short) :
    partsFrom parse (t.object .program)
        (if (t.answer .checker).isAbsent then t.object .typeChecker else t.object .checker) =
      inquire parse t (some .createScanner) := by
  have hscanner : required "createScanner" (functionField parse "createScanner") =
      ask parse t .createScanner := required_function (d := .createScanner) parse rfl rfl (by decide)
  have hnodeId (t : Transcript) : required "getNodeId" (functionField parse "getNodeId") =
      ask parse t .getNodeId := required_function (d := .getNodeId) parse rfl rfl (by decide)
  have hwalker (t : Transcript) : functionField parse "forEachChild" =
      (fun v => if v.isAbsent then none else some v) <$> ask parse t .forEachChild :=
    functionField_forEachChild parse
  have hkinds (t : Transcript) : required "syntaxKinds" (objectField parse "syntaxKinds") =
      (fun v => v.object?.getD default) <$> ask parse t .syntaxKinds :=
    required_object (d := .syntaxKinds) parse rfl rfl rfl (by decide)
  rw [partsFrom, inquire_some, hscanner]
  refine congrArg _ (funext fun v₁ => ?_)
  rw [Demand.next, inquire_some, hnodeId]
  refine congrArg _ (funext fun v₂ => ?_)
  rw [Demand.next, inquire_some, hwalker, bind_of_map]
  refine congrArg _ (funext fun v₃ => ?_)
  rw [Demand.next, inquire_some, hkinds, bind_of_map]
  refine congrArg _ (funext fun v₄ => ?_)
  rw [Demand.next, inquire_none]
  -- The four answers at the end of the transcript are the first ones there to these demands.
  obtain ⟨h₁, h₂, h₃, h₄⟩ := ht
  have hanswer (d : Demand) : Transcript.answer (t ++ [(.createScanner, v₁)] ++ [(.getNodeId, v₂)] ++
      [(.forEachChild, v₃)] ++ [(.syntaxKinds, v₄)]) d = match d with
        | .createScanner => v₁
        | .getNodeId => v₂
        | .forEachChild => v₃
        | .syntaxKinds => v₄
        | d => t.answer d := by
    cases d <;> simp [Transcript.answer, List.lookup_append, h₁, h₂, h₃, h₄] <;> rfl
  have hparts : Transcript.parts (t ++ [(.createScanner, v₁)] ++ [(.getNodeId, v₂)] ++
      [(.forEachChild, v₃)] ++ [(.syntaxKinds, v₄)]) = fun kinds =>
        { program := t.object .program
          checker := if (t.answer .checker).isAbsent then t.object .typeChecker else t.object .checker
          scannerFactory := v₁
          nodeId := v₂
          forEachChild := if v₃.isAbsent then none else some v₃
          kinds } := by
    funext kinds
    simp only [Transcript.parts, Transcript.object, hanswer]
  have hobject : Transcript.object (t ++ [(.createScanner, v₁)] ++ [(.getNodeId, v₂)] ++
      [(.forEachChild, v₃)] ++ [(.syntaxKinds, v₄)]) .syntaxKinds = v₄.object?.getD default := by
    rw [Transcript.object, hanswer]
  rw [hparts, hobject]
  rfl

/-- What follows on an answer matters only where the answer is accepted. -/
theorem ask_bind {α : Type} {d : Demand} {f g : Value → Operation α}
    (h : ∀ v heap, d.accepts heap v = true → f v = g v) : ask parse t d >>= f = ask parse t d >>= g := by
  rw [ask, bind_assoc, bind_assoc]
  refine congrArg _ (funext fun v => ?_)
  funext E w
  rw [bind_eq, bind_eq, check_run]
  rcases hv : d.accepts w.heap v with _ | _
  · rfl
  · simp only [if_true, h v w.heap hv]

/-- All parts are had by asking for one thing after the other. -/
theorem parts_eq (parse : ObjectRef) : parts parse = inquire parse [] (some .program) := by
  have hprogram : required "program" (objectField parse "program") =
      (fun v => v.object?.getD default) <$> ask parse [] .program :=
    required_object (d := .program) parse rfl rfl rfl (by decide)
  have hparts : parts parse = required "program" (objectField parse "program") >>= fun program =>
    checkerOf parse program >>= partsFrom parse program := rfl
  rw [hparts, hprogram, bind_of_map, inquire_some]
  refine ask_bind fun v₀ _ h₀ => ?_
  obtain ⟨program, rfl⟩ : ∃ r, v₀ = .object r := by
    cases v₀ <;> simp [Demand.accepts, Demand.isOptional, Demand.isFunction, Value.object?] at h₀ ⊢
  have hchecker : objectField parse "checker" =
      Value.object? <$> ask parse [(.program, .object program)] .checker := objectField_checker parse
  rw [Demand.next, inquire_some, checkerOf, hchecker, bind_of_map, bind_assoc]
  refine ask_bind fun v₁ _ h₁ => ?_
  rw [Demand.next]
  rcases habsent : v₁.isAbsent with _ | _
  · obtain ⟨checker, rfl⟩ : ∃ r, v₁ = .object r := by
      cases v₁ <;> simp [Demand.accepts, Demand.isFunction, Value.object?, Value.isAbsent]
        at h₁ habsent ⊢
    exact partsFrom_eq parse (t := [(.program, .object program), (.checker, .object checker)])
      ⟨rfl, rfl, rfl, rfl⟩
  · have hnone : v₁.object? = none := by
      cases v₁ <;> simp [Value.object?, Value.isAbsent] at habsent ⊢
    have hmake : required "program.getTypeChecker" (functionField program "getTypeChecker") =
        ask parse [(.program, .object program), (.checker, v₁)] .getTypeChecker :=
      required_function (d := .getTypeChecker) program rfl rfl (by decide)
    have hobject : (Value.object program).object?.getD default = program := rfl
    rw [hnone, hobject]
    simp only [hmake, if_true]
    rw [bind_assoc, inquire_some]
    simp only [List.nil_append, List.cons_append]
    refine congrArg _ (funext fun v₂ => ?_)
    rw [madeChecker, bind_of_map, Demand.next, inquire_some]
    refine congrArg _ (funext fun v₃ => ?_)
    have hrest := partsFrom_eq parse (t := [(.program, .object program), (.checker, v₁),
      (.getTypeChecker, v₂), (.typeChecker, v₃)]) ⟨rfl, rfl, rfl, rfl⟩
    have hanswer : (Transcript.answer [(.program, .object program), (.checker, v₁),
      (.getTypeChecker, v₂), (.typeChecker, v₃)] .checker).isAbsent = true := habsent
    rw [hanswer] at hrest
    exact hrest

/-! ## Opening -/

/-- Makes a context of the parts. -/
def establish (rules : IdentityRules) (p : Parts) : Operation ContextId := do
  let identityToken ← newIdentityToken
  act fun w =>
    let w := w.log .debug "created program context"
      [("syntax_kinds", toString p.kinds.size),
        ("for_each_child", toString p.forEachChild.isSome), ("options", rules.debug)]
    (⟨w.contexts.size⟩,
      { w with contexts := w.contexts.push (newContext p identityToken rules) })

theorem open_eq (parse : ObjectRef) (rules : IdentityRules) :
    ContextId.open parse rules = inquire parse [] (some .program) >>= establish rules := by
  rw [← parts_eq]
  rfl

/-- The demands that are met from a world on, what is asked for next, and the world in which it is. -/
inductive Asked (parse : ObjectRef) (E : Engine) (w : World) :
    Transcript → Option Demand → World → Prop where
  | start : Asked parse E w [] (some .program) w
  | next {t : Transcript} {d : Demand} {w₁ w₂ : World} {v : Value}
      (before : Asked parse E w t (some d) w₁) (answer : inquiry parse t d E w₁ = (.ok v, w₂))
      (accepted : d.accepts w₂.heap v = true) : Asked parse E w (t ++ [(d, v)]) (d.next v) w₂

/-- All demands are met, and the object of syntax kinds makes a table. -/
inductive Provides (parse : ObjectRef) (E : Engine) (w : World) : Parts → World → Prop where
  | intro {t : Transcript} {w₁ w₂ : World} {kinds : KindTable} (asked : Asked parse E w t none w₁)
      (table : kindTable (t.object .syntaxKinds) E w₁ = (.ok kinds, w₂)) :
      Provides parse E w (t.parts kinds) w₂

/-- What comes of opening a context: a context of the parts, or the error of the first demand that is
not met, in the world that its inquiry left. -/
inductive Opens (parse : ObjectRef) (rules : IdentityRules) (E : Engine) (w : World) :
    Except (Stop SessionError) ContextId × World → Prop where
  | opened {p : Parts} {w₁ : World} (provided : Provides parse E w p w₁) :
      Opens parse rules E w (establish rules p E w₁)
  | violated {t : Transcript} {d : Demand} {w₁ w₂ : World} {v : Value}
      (asked : Asked parse E w t (some d) w₁) (answer : inquiry parse t d E w₁ = (.ok v, w₂))
      (refused : d.accepts w₂.heap v = false) :
      Opens parse rules E w (.error (.failed (d.violation w₂.heap v)), w₂)
  | thrown {t : Transcript} {d : Demand} {w₁ w₂ w₃ : World} {thrown : Value} {text : String}
      (asked : Asked parse E w t (some d) w₁)
      (escape : inquiry parse t d E w₁ = (.error (.failed thrown), w₂))
      (shown : (Eval.thrownText thrown : Operation String) E w₂ = (.ok text, w₃)) :
      Opens parse rules E w (.error (.failed (.located d.site (.foreign text))), w₃)
  | untabled {t : Transcript} {w₁ w₂ : World} {e : SessionError} (asked : Asked parse E w t none w₁)
      (table : kindTable (t.object .syntaxKinds) E w₁ = (.error (.failed e), w₂)) :
      Opens parse rules E w (.error (.failed (.located "syntaxKinds" e)), w₂)
  /-- Foreign code comes to no end, and so the opening comes to none. -/
  | unanswered {t : Transcript} {d : Demand} {w₁ w₂ : World} {stop : Stop SessionError}
      (asked : Asked parse E w t (some d) w₁)
      (answer : foreign (inquiry parse t d) E w₁ = (.error stop, w₂))
      (unfailed : ∀ e, stop ≠ .failed e) : Opens parse rules E w (.error stop, w₂)
  | unfinished {t : Transcript} {w₁ w₂ : World} {stop : Stop SessionError}
      (asked : Asked parse E w t none w₁)
      (table : kindTable (t.object .syntaxKinds) E w₁ = (.error stop, w₂))
      (unfailed : ∀ e, stop ≠ .failed e) : Opens parse rules E w (.error stop, w₂)

theorem foreign_of_ok {α : Type} {x : Eval α} {a : α} {w' : World} (h : x E w = (.ok a, w')) :
    foreign x E w = (.ok a, w') := by
  rw [foreign, handle, bind_eq, attempt, h]
  rfl

theorem foreign_of_thrown {α : Type} {x : Eval α} {thrown : Value} {w' : World}
    (h : x E w = (.error (.failed thrown), w')) :
    foreign x E w = (do fail (.foreign (← Eval.thrownText thrown)) : Operation α) E w' := by
  rw [foreign, handle, bind_eq, attempt, h]

theorem ask_run {d : Demand} {v : Value} {w' : World} (h : inquiry parse t d E w = (.ok v, w')) :
    ask parse t d E w =
      (if d.accepts w'.heap v then .ok v else .error (.failed (d.violation w'.heap v)), w') := by
  have hread : (foreign (inquiry parse t d)).located d.site E w = (.ok v, w') := by
    rw [located_eq, foreign_of_ok h]
    rfl
  rw [ask, bind_of_ok hread, check_run]

/-- What is met leaves the rest to be asked for. -/
theorem Asked.inquire_eq {t : Transcript} {o : Option Demand} {w₁ : World}
    (h : Asked parse E w t o w₁) (rules : IdentityRules) : ContextId.open parse rules E w =
      (inquire parse t o >>= establish rules) E w₁ := by
  induction h with
  | start => rw [open_eq]
  | @next t d w₁ w₂ v _ answer accepted ih =>
    have hask : ask parse t d E w₁ = (.ok v, w₂) := by rw [ask_run answer, if_pos accepted]
    rw [ih, inquire_some, bind_assoc, bind_of_ok hask]

theorem Opens.eq {rules : IdentityRules} {result : Except (Stop SessionError) ContextId × World}
    (h : Opens parse rules E w result) : ContextId.open parse rules E w = result := by
  cases h with
  | opened provided =>
    obtain ⟨asked, table⟩ := provided
    rw [asked.inquire_eq, inquire_none, bind_eq, map_eq, located_eq, table]
    rfl
  | @violated t d w₁ w₂ v asked answer refused =>
    have hask : ask parse t d E w₁ = (.error (.failed (d.violation w₂.heap v)), w₂) := by
      rw [ask_run answer, if_neg (by simp [refused])]
    rw [asked.inquire_eq, inquire_some, bind_assoc, bind_of_error hask]
  | @thrown t d w₁ w₂ w₃ v text asked escape htext =>
    have hforeign : foreign (inquiry parse t d) E w₁ = (.error (.failed (.foreign text)), w₃) := by
      rw [foreign_of_thrown escape, bind_of_ok htext]
      rfl
    have hask : ask parse t d E w₁ = (.error (.failed (.located d.site (.foreign text))), w₃) := by
      rw [ask, bind_of_error (located_of_error d.site hforeign)]
      rfl
    rw [asked.inquire_eq, inquire_some, bind_assoc, bind_of_error hask]
  | untabled asked table =>
    rw [asked.inquire_eq, inquire_none, bind_eq, map_eq, located_eq, table]
    rfl
  | @unanswered t d w₁ w₂ stop asked answer unfailed =>
    have hask : ask parse t d E w₁ = (.error stop, w₂) := by
      rw [ask, bind_of_error (located_of_error d.site answer)]
      cases stop with
      | failed e => exact absurd rfl (unfailed e)
      | _ => rfl
    rw [asked.inquire_eq, inquire_some, bind_assoc, bind_of_error hask]
  | @unfinished t w₁ w₂ stop asked table unfailed =>
    rw [asked.inquire_eq, inquire_none, bind_eq, map_eq, located_eq, table]
    cases stop with
    | failed e => exact absurd rfl (unfailed e)
    | _ => rfl

/-- Wherever the asking has come to, something comes of it. -/
theorem Asked.opens (rules : IdentityRules) (t : Transcript) (o : Option Demand) {w₁ : World}
    (h : Asked parse E w t o w₁) : ∃ result, Opens parse rules E w result := by
  match o with
  | none =>
    rcases table : kindTable (t.object .syntaxKinds) E w₁ with ⟨⟨_ | _ | _⟩ | kinds, w₂⟩
    · exact ⟨_, .untabled h table⟩
    · exact ⟨_, .unfinished h table (by simp)⟩
    · exact ⟨_, .unfinished h table (by simp)⟩
    · exact ⟨_, .opened (.intro h table)⟩
  | some d =>
    rcases answer : inquiry parse t d E w₁ with ⟨⟨thrown | _ | _⟩ | v, w₂⟩
    · rcases htext : (Eval.thrownText thrown : Operation String) E w₂ with ⟨stop | text, w₃⟩
      · refine ⟨(.error stop, w₃), .unanswered h ?_ ?_⟩
        · rw [foreign_of_thrown answer, bind_of_error htext]
        · rintro e rfl
          exact Eval.thrownText_unfailing thrown _ _ _ _ htext
      · exact ⟨_, .thrown h answer htext⟩
    · refine ⟨(.error .exhausted, w₂), .unanswered h ?_ (by simp)⟩
      rw [foreign, handle, bind_eq, attempt, answer]
    · refine ⟨(.error .senseless, w₂), .unanswered h ?_ (by simp)⟩
      rw [foreign, handle, bind_eq, attempt, answer]
    · rcases accepted : d.accepts w₂.heap v with _ | _
      · exact ⟨_, .violated h answer accepted⟩
      · exact Asked.opens rules (t ++ [(d, v)]) (d.next v) (h.next answer accepted)
termination_by o.elim 0 fun d => d.rank + 1
decreasing_by exact d.next_rank v

/-! ## The order of the demands -/

/-- The demands in order, with or without those that an absent checker brings. -/
def Demand.order (absent : Bool) : List Demand :=
  [program, checker] ++ (if absent then [getTypeChecker, typeChecker] else []) ++
    [createScanner, getNodeId, forEachChild, syntaxKinds]

/-- The demands in order up to one of them. -/
def Demand.before (absent : Bool) (o : Option Demand) : List Demand :=
  (order absent).takeWhile (some · != o)

theorem Demand.before_next {d : Demand} {absent : Bool} (hd : d ∈ order absent) (hc : d ≠ checker)
    (v : Value) : before absent (d.next v) = before absent (some d) ++ [d] ∧
      ∀ d' ∈ d.next v, d' ∈ order absent := by
  cases d <;> cases absent <;> first | exact absurd rfl hc | exact absurd hd (by decide) |
    exact ⟨rfl, by simp [next, order]⟩

theorem Transcript.answer_append {t : Transcript} {d d' : Demand} {v : Value} (h : d ≠ d') :
    Transcript.answer (t ++ [(d, v)]) d' = t.answer d' := by
  have hne : (d' == d) = false := beq_false_of_ne h.symm
  have hnone : List.lookup d' [(d, v)] = none := by
    rw [List.lookup_cons, hne]
    rfl
  rw [answer, List.lookup_append, hnone, Option.or_none, answer]

/-- What was asked for comes first in the order, and what is asked for comes next. -/
theorem Asked.before {t : Transcript} {o : Option Demand} {w₁ : World} (h : Asked parse E w t o w₁) :
    t.map Prod.fst = Demand.before (t.answer .checker).isAbsent o ∧
      ∀ d ∈ o, d ∈ Demand.order (t.answer .checker).isAbsent := by
  induction h with
  | start => exact ⟨rfl, by decide⟩
  | @next t d w₁ w₂ v _ answer accepted ih =>
    obtain ⟨hbefore, hmem⟩ := ih
    by_cases hc : d = .checker
    · subst hc
      have hprogram : t.map Prod.fst = [.program] := by
        rw [hbefore]
        cases (t.answer .checker).isAbsent <;> rfl
      obtain ⟨⟨d₀, v₀⟩, rfl, rfl⟩ := List.map_eq_singleton_iff.mp hprogram
      have hanswer : Transcript.answer ([(.program, v₀)] ++ [(.checker, v)]) .checker = v := rfl
      rw [hanswer]
      cases ha : v.isAbsent <;> simp [Demand.next, ha] <;> decide
    · rw [Transcript.answer_append hc, List.map_append, hbefore]
      obtain ⟨hnext, hnextMem⟩ := Demand.before_next (hmem d rfl) hc v
      exact ⟨hnext.symm, hnextMem⟩

/-- The demands that were met and the rest, which starts with what is asked for, are all in order. -/
theorem Asked.in_order {t : Transcript} {o : Option Demand} {w₁ : World} (h : Asked parse E w t o w₁) :
    ∃ rest, t.map Prod.fst ++ rest = Demand.order (t.answer .checker).isAbsent ∧ o = rest.head? := by
  obtain ⟨hbefore, hmem⟩ := h.before
  refine ⟨(Demand.order (t.answer .checker).isAbsent).dropWhile (some · != o), ?_, ?_⟩
  · rw [hbefore, Demand.before, List.takeWhile_append_dropWhile]
  · generalize (t.answer .checker).isAbsent = absent at hmem ⊢
    cases o with
    | none => cases absent <;> rfl
    | some d =>
      have hd := hmem d rfl
      cases d <;> cases absent <;> first | rfl | exact absurd hd (by decide)

/-! ## New contexts -/

/-- The context is open, its identity maps are empty, and its handles hold the parts and a function that
gives tokens. -/
structure Fresh (p : Parts) (rules : IdentityRules) (cx : Context) : Prop where
  rules : cx.rules = rules
  kinds : cx.kinds = p.kinds
  isOpen : cx.custodian.closed = false
  identities : ∀ k, (cx.identities k).entries = []
  slots : ∃ token : ObjectRef, cx.custodian.slots.toList =
    ([.object p.program, .object p.checker, p.scannerFactory, p.nodeId, .object token] ++
      p.forEachChild.toList).map some
  live : cx.custodian.liveHandles = if p.forEachChild.isSome then 6 else 5

theorem newContext_fresh (p : Parts) (token : ObjectRef) (rules : IdentityRules) :
    Fresh p rules (newContext p (.object token) rules) where
  rules := rfl
  kinds := rfl
  isOpen := rfl
  identities k := by cases k <;> rfl
  slots := ⟨token, List.toList_toArray⟩
  live := by
    rw [Custodian.liveHandles, newContext, initialSlots]
    cases p.forEachChild <;> rfl

/-- The context that is made of the parts is a new one. -/
theorem establish_fresh (rules : IdentityRules) (p : Parts) (E : Engine) (w : World) :
    ∃ w', establish rules p E w = (.ok ⟨w.contexts.size⟩, w') ∧
      Fresh p rules (w'.context ⟨w.contexts.size⟩) := by
  refine ⟨_, rfl, ?_⟩
  let token : ObjectRef := ⟨w.heap.objects.size⟩
  have hcontext : (w.contexts.push (newContext p (.object token) rules)).getD w.contexts.size default =
      newContext p (.object token) rules := (getD_push w.contexts _ _).trans (if_pos rfl)
  have hfresh := newContext_fresh p token rules
  rw [← hcontext] at hfresh
  exact hfresh

/-! ## The law -/

/-- The result of a parse whose program makes the checker, and one whose checker is a number. -/
def demandHeap : Heap :=
  let reference (name : String) (i : Nat) : PropertyDescription :=
    ⟨.ofString name, .value (.object ⟨i⟩), true⟩
  .ofDescriptions
    [⟨"program", .plain, [reference "getTypeChecker" 1]⟩,
      ⟨"getTypeChecker", .function (.value (.object ⟨2⟩)), []⟩, ⟨"checker", .plain, []⟩,
      ⟨"createScanner", .function (.value .undefined), []⟩,
      ⟨"getNodeId", .function (.value (.int 7)), []⟩,
      ⟨"forEachChild", .function (.value .undefined), []⟩, ⟨"syntaxKinds", .plain, []⟩,
      ⟨"parse", .plain, [reference "program" 0, reference "createScanner" 3,
        reference "getNodeId" 4, reference "forEachChild" 5, reference "syntaxKinds" 6]⟩,
      ⟨"broken", .plain, [reference "program" 0, ⟨.ofString "checker", .value (.int 7), true⟩]⟩] #[]

def sampleOpening (i : Nat) : Except (Stop SessionError) ContextId × World :=
  ContextId.open ⟨i⟩ {} (Engine.ofFuel 3 stackSize) (World.ofHeap demandHeap)

end Bootstrap

end ProxySession
