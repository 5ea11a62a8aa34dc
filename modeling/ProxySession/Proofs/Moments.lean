import ProxySession.Foreign.Build
import ProxySession.Proofs.LaterHoldings
import ProxySession.Proofs.Steps

/-!
# Moments of a session

Scripts and steps are transitions that own nothing at their end. The moments on record are those at which a
step or a function begins or ends, on every level of nesting; a session can hold what it holds then,
and moves lead from each moment to the later ones.
-/

namespace ProxySession

open Effect

theorem Script.run_neutral {kept : List Reference} (s : Script) : s.run.Neutral kept := by
  unfold Script.run
  exact Neutral.located _ (Neutral.bind (Bootstrap.foreign_neutral
    (Eval.nested_foreignActs _ (.run _ _ _)).neutral) fun _ => Neutral.pure _)

namespace Session

variable {engine : Engine}

theorem report_transitions (he : engine.Sound) {x : Operation Shown} (hx : x.Neutral [])
    (context : Option String) (w : World) : Transitions 0 w 0 (report engine x context w).2 := by
  have hclear : Transitions 0 w 0 { w with crossings := #[], events := #[] } :=
    .single (.move (.still ⟨rfl, rfl⟩) ⟨.refl _, rfl, .refl _⟩)
  exact hclear.trans (hx engine he 0 _ (List.nil_subset _)).transitions

theorem runScripts_transitions (he : engine.Sound) : (scripts : List Script) → (w : World) →
    Transitions 0 w 0 (runScripts engine scripts w).2
  | [], _ => .refl
  | s :: rest, w => (report_transitions he s.run_neutral none w).trans (runScripts_transitions he rest _)

theorem runSteps_transitions (he : engine.Sound) : (steps : List Step) → (w : World) →
    Transitions 0 w 0 (runSteps engine steps w).2
  | [], _ => .refl
  | .mk command context store :: rest, w =>
    (report_transitions he (Step.run_neutral (.mk command context store)) (some context) w).trans
      (runSteps_transitions he rest _)

/-! ## Moments -/

/-- The world after scripts and steps over a heap. -/
def last (fuel : Nat) (heap : Heap) (scripts : List Script) (steps : List Step) : World :=
  let engine := Engine.ofFuel fuel stackSize
  (runSteps engine steps (runScripts engine scripts (World.ofHeap heap)).2).2

/-- What was held at each moment on record, the latest first. -/
def moments (fuel : Nat) (heap : Heap) (scripts : List Script) (steps : List Step) :
    List Holdings :=
  let w := last fuel heap scripts steps
  w.toHoldings :: w.history

variable {fuel : Nat} {heap : Heap} {scripts : List Script} {steps : List Step}

/-- What a session over a heap can hold at any time, also between the moments on record. -/
def Reached (heap : Heap) (h : Holdings) : Prop :=
  ∃ F w, Moves 0 (World.ofHeap heap) F w ∧ w.toHoldings = h

/-- What a session over a heap can hold at two times, one after the other. -/
def Leads (heap : Heap) (h h' : Holdings) : Prop :=
  ∃ F w F' w', Moves 0 (World.ofHeap heap) F w ∧ w.toHoldings = h ∧ Moves F w F' w' ∧
    w'.toHoldings = h'

theorem Reached.sound {h : Holdings} (hr : Reached heap h) : ∃ F, Holdings.Sound F h := by
  obtain ⟨F, w, hm, rfl⟩ := hr
  exact ⟨F, (hm.sound_later Holdings.empty_sound).1⟩

theorem Leads.reached {h h' : Holdings} (hl : Leads heap h h') : Reached heap h' := by
  obtain ⟨F, w, F', w', hm, rfl, hm', rfl⟩ := hl
  exact ⟨F', w', hm.trans hm', rfl⟩

theorem Leads.later {h h' : Holdings} (hl : Leads heap h h') : h.Later h' := by
  obtain ⟨F, w, F', w', hm, rfl, hm', rfl⟩ := hl
  exact (hm'.sound_later (hm.sound_later Holdings.empty_sound).1).2

theorem last_transitions : Transitions 0 (World.ofHeap heap) 0 (last fuel heap scripts steps) := by
  have he := Engine.ofFuel_sound fuel stackSize
  exact (runScripts_transitions he scripts _).trans (runSteps_transitions he steps _)

theorem last_moves : Moves 0 (World.ofHeap heap) 0 (last fuel heap scripts steps) :=
  last_transitions.moves

/-- Moves lead from each moment on record to the later ones and to the present. -/
theorem leads_of_moves {F : Multiset Reference} {w : World}
    (hm : Moves 0 (World.ofHeap heap) F w) :
    (∀ h ∈ w.history, ∃ F₀ w₀, Moves 0 (World.ofHeap heap) F₀ w₀ ∧ w₀.toHoldings = h ∧
      Moves F₀ w₀ F w) ∧ w.history.Pairwise fun h' h => Leads heap h h' := by
  have hrun {p : Multiset Reference × World}
      (hp : Relation.ReflTransGen Move (0, World.ofHeap heap) p) :
      (∀ h ∈ p.2.history, ∃ F₀ w₀, Moves 0 (World.ofHeap heap) F₀ w₀ ∧ w₀.toHoldings = h ∧
        Relation.ReflTransGen Move (F₀, w₀) p) ∧
          p.2.history.Pairwise fun h' h => Leads heap h h' := by
    induction hp with
    | refl => exact ⟨fun h hh => absurd hh List.not_mem_nil, List.Pairwise.nil⟩
    | tail hbefore hmove ih =>
      obtain ⟨hpast, hpairs⟩ := ih
      have hon : ∀ h ∈ _, ∃ F₀ w₀, Moves 0 (World.ofHeap heap) F₀ w₀ ∧ w₀.toHoldings = h ∧
          Relation.ReflTransGen Move (F₀, w₀) _ := fun h hh => by
        obtain ⟨F₀, w₀, hm₀, he, hto⟩ := hpast h hh
        exact ⟨F₀, w₀, hm₀, he, hto.tail hmove⟩
      -- Only a mark puts a moment on record.
      cases hmove with
      | still hw =>
        rw [hw.history]
        exact ⟨hon, hpairs⟩
      | change _ hw =>
        rw [hw.history]
        exact ⟨hon, hpairs⟩
      | mark =>
        refine ⟨fun h hh => ?_, List.pairwise_cons.2 ⟨fun h hh => ?_, hpairs⟩⟩
        · rcases List.mem_cons.1 hh with rfl | hh
          · exact ⟨_, _, hbefore, rfl, .single .mark⟩
          · exact hon h hh
        · obtain ⟨F₀, w₀, hm₀, he, hto⟩ := hpast h hh
          exact ⟨F₀, w₀, _, _, hm₀, he, hto, rfl⟩
  exact hrun hm

/-- A session can hold what it holds at the moments on record, one after the other. -/
theorem moments_reached : ∀ h ∈ moments fuel heap scripts steps, Reached heap h := by
  intro h hh
  rcases List.mem_cons.1 hh with rfl | hh
  · exact ⟨0, _, last_moves, rfl⟩
  · obtain ⟨F, w, hm, he, _⟩ := (leads_of_moves last_moves).1 h hh
    exact ⟨F, w, hm, he⟩

theorem moments_lead : (moments fuel heap scripts steps).Pairwise fun h' h => Leads heap h h' := by
  have hm : Moves 0 (World.ofHeap heap) 0 (last fuel heap scripts steps) := last_moves
  obtain ⟨hpast, hpairs⟩ := leads_of_moves hm
  refine List.pairwise_cons.2 ⟨fun h hh => ?_, hpairs⟩
  obtain ⟨F, w, hm, he, hto⟩ := hpast h hh
  exact ⟨F, w, 0, _, hm, he, hto, rfl⟩

/-! ## A sample session -/

/-- A heap with a parse result, a compiler that numbers every node 7, a node, and an array of one
node. -/
def sampleHeap : Heap :=
  let reference (name : String) (i : Nat) : PropertyDescription :=
    ⟨.ofString name, .value (.object ⟨i⟩), true⟩
  .ofDescriptions
    [⟨"program", .plain, []⟩, ⟨"checker", .plain, []⟩,
      ⟨"createScanner", .function (.value .undefined), []⟩,
      ⟨"getNodeId", .function (.value (.int 7)), []⟩, ⟨"syntaxKinds", .plain, []⟩,
      ⟨"parse", .plain, [reference "program" 0, reference "checker" 1,
        reference "createScanner" 2, reference "getNodeId" 3, reference "syntaxKinds" 4]⟩,
      ⟨"node", .plain, []⟩, ⟨"nodes", .array [.object ⟨6⟩] none, []⟩] #[]

/-- Opens a context, resolves the node and another object as nodes, converts the array to a list,
clones the list and drops it, and closes the context. -/
def sampleSteps : List Step :=
  [.mk (.open (.value (.object ⟨5⟩)) {}) "cx" (some "cx"),
    .mk (.resolve .node (.value (.object ⟨6⟩))) "cx" (some "node"),
    .mk (.resolve .node (.value (.object ⟨4⟩))) "cx" (some "other"),
    .mk (.convert (.value (.object ⟨7⟩)) .nodeList .required) "cx" (some "list"),
    .mk (.clone "list") "cx" (some "copy"),
    .mk (.drop "list") "cx" none,
    .mk .close "cx" none]

/-- The world after the first `n` steps of the sample session. -/
def sampleWorld (n : Nat) : World := last 3 sampleHeap [] (sampleSteps.take n)

/-- The sample session's moment before its last `i` ones. -/
def sampleMoment (i : Nat) : Holdings := (moments 3 sampleHeap [] sampleSteps).getD i default

theorem run_of_toOption {ε α β : Type} {x : Except ε α × β} {a : α} (h : x.1.toOption = some a) :
    x = (.ok a, x.2) := by
  obtain ⟨result, b⟩ := x
  cases result with
  | ok a' =>
    cases h
    rfl
  | error e => cases h

theorem sampleMoment_mem {i : Nat} (hi : i < (moments 3 sampleHeap [] sampleSteps).length) :
    sampleMoment i ∈ moments 3 sampleHeap [] sampleSteps := by
  have hget : sampleMoment i = (moments 3 sampleHeap [] sampleSteps)[i] :=
    (List.getElem_eq_getD default).symm
  rw [hget]
  exact List.getElem_mem hi

end Session

end ProxySession
