import ProxySession.Proofs.Outlooks
import ProxySession.Proofs.Resurfacing

/-!
# Access through a handle

An access looks the object behind the handle up and works on it, while the context is kept alive. If there is
no object to work on, the access fails and leaves no trace.
-/

namespace ProxySession

open Effect

namespace ProxyCore

variable {α : Type} {g : ProxyCore} {name : String} {r : ObjectRef} {w : World} {e : SessionError}

def objectAt (g : ProxyCore) (w : World) : Except SessionError ObjectRef :=
  if (w.context g.context).references = 0 then .error (.lifetime .contextDropped)
  else match (w.context g.context).custodian.get g.handle with
    | .ok (.object r) => .ok r
    | .ok x => .error (.shapeMismatch "object" (w.heap.typeName x))
    | .error e => .error (.lifetime e)

theorem objectAt_of_get (hr : (w.context g.context).references ≠ 0)
    (hget : (w.context g.context).custodian.get g.handle = .ok (.object r)) : g.objectAt w = .ok r := by
  rw [objectAt, if_neg hr, hget]

theorem object_run (hr : (w.context g.context).references ≠ 0) (E : Engine) :
    g.context.object g.handle E (World.holdContext g.context w) =
      ((g.objectAt w).mapError .failed, World.holdContext g.context w) := by
  rw [ContextId.object, ContextId.value, bind_assoc, world_bind, World.holdContext_context hr, objectAt,
    if_neg hr]
  rcases (w.context g.context).custodian.get g.handle with e | x
  · rfl
  · cases x <;> rfl

theorem access_of_error (h : g.objectAt w = .error e) (work : ObjectRef → Operation α) (E : Engine) :
    g.access name work E w = (.error (.failed (.located (g.site name) e)), w) := by
  rw [access, located_eq]
  by_cases hr : (w.context g.context).references = 0
  · rw [objectAt, if_pos hr] at h
    cases h
    rw [g.context.entering_dropped hr]
    rfl
  · have hback : World.dropContext g.context (World.holdContext g.context w) = w :=
      World.drop_hold fun hnone => absurd hnone hr
    have hobject := object_run hr E
    rw [h] at hobject
    rw [g.context.entering_live hr, bind_of_error hobject, hback]
    rfl

theorem references_of_objectAt (h : g.objectAt w = .ok r) : (w.context g.context).references ≠ 0 := by
  intro hr
  rw [objectAt, if_pos hr] at h
  cases h

theorem access_of_ok (h : g.objectAt w = .ok r) (work : ObjectRef → Operation α) (E : Engine) :
    g.access name work E w =
      ((work r E (World.holdContext g.context w)).1.mapError (Stop.map (.located (g.site name))),
        World.dropContext g.context (work r E (World.holdContext g.context w)).2) := by
  have hobject := object_run (references_of_objectAt h) E
  rw [h] at hobject
  rw [access, located_eq, g.context.entering_live (references_of_objectAt h), bind_of_ok hobject]

end ProxyCore

end ProxySession
