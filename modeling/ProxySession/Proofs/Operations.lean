import ProxySession.Proofs.NonRetaining
import ProxySession.Proofs.Retention
import ProxySession.Session.ProxyCore

/-!
# Operations of a context as progress

An operation that keeps its context alive owns a reference to it meanwhile. It may retain there, so it is
not `NonRetaining`.
-/

namespace ProxySession

open Effect

variable {kept : List Reference} {α : Type} {given : α → Multiset Reference}

namespace ContextId

variable (c : ContextId)

/-! ## Keeping a context alive -/

theorem dropContext_progress (w : World) (F : Multiset Reference) :
    Progress (([.context c] : List Reference) + F) w F (World.dropContext c w) :=
  .giveBack (.context c) w

theorem keeping_gives {ε : Type} {x : Effect ε α} {w : World}
    (hw : (w.context c).references ≠ 0) (hx : x.Gives (.context c :: kept) given) :
    (c.keeping x).TransfersAt w kept 0 given := by
  have ht : (change (World.holdContext c) : Effect ε Unit).TransfersAt w kept 0
      fun _ => (([.context c] : List Reference) : Multiset Reference) := by
    intro E _ F _
    rw [zero_add]
    exact .change (.enter hw) (World.take_turns (.context c) w) (.take (.context c) _) (.take _ _)
  exact ht.bind fun _ => Gives.eventually [.context c] hx (dropContext_progress c)

theorem entering_gives {x : Operation α} (hx : x.Gives (.context c :: kept) given) :
    (c.entering x).Gives kept given := by
  refine Transfers.ofWorld fun w => ?_
  split
  · exact Gives.fail _ w
  · next h => exact keeping_gives c h hx

@[grind ←] theorem entering_neutral {x : Operation α} (hx : x.Neutral (.context c :: kept)) :
    (c.entering x).Neutral kept :=
  (entering_gives c hx.gives_nothing).neutral fun _ => rfl

/-! ## Host functions -/

theorem newHostFunction_neutral {behaviour : HostBehaviour} (hb : ∀ k, behaviour ≠ .collect k) :
    (c.newHostFunction behaviour).Neutral kept := fun _ _ _ w _ =>
  .rests ⟨rfl, rfl, rfl, .alloc w.heap _, rfl, rfl, List.prefix_rfl, .added hb rfl rfl rfl⟩

end ContextId

end ProxySession
