import ProxySession.Proofs.Sums
import ProxySession.Session.Evaluation.Access

/-!
# Regimes

Foreign code itself changes only the heap and the record of crossings. Whatever else happens while it
runs happens in the functions that it calls. A regime is a preorder on worlds that allows these
changes of its own, and an effect is `Foreign` if it keeps to every regime that the functions of its
engine keep to. The rules for the formers of effects are tagged, so `grind` follows the text of a
definition that is made of them.
-/

namespace ProxySession

/-! ## Heaps that evolve -/

/-- The kinds that an object can have later on: an array stays an array, any other kind stays. -/
inductive ObjectKind.Stays : ObjectKind → ObjectKind → Prop
  | same (k : ObjectKind) : Stays k k
  | array (m n : Nat) : Stays (.array m) (.array n)

theorem ObjectKind.Stays.trans {k l m : ObjectKind} (h₁ : k.Stays l) (h₂ : l.Stays m) :
    k.Stays m := by
  cases h₁ with
  | same => exact h₂
  | array => cases h₂ <;> exact .array _ _

namespace Heap

/-- A heap with all the objects of an earlier one, which keep their kinds. -/
structure Evolves (h h' : Heap) : Prop where
  size : h.objects.size ≤ h'.objects.size
  kinds : ∀ r : ObjectRef, r.index < h.objects.size → (h.object r).kind.Stays (h'.object r).kind

section

variable {h : Heap}

theorem kind_of_isError {r : ObjectRef} (hr : h.isError (.object r) = true) :
    (h.object r).kind = .error := by
  rw [isError] at hr
  split at hr
  · assumption
  · cases hr

theorem size_of_isError {r : ObjectRef} (hr : h.isError (.object r) = true) :
    r.index < h.objects.size := by
  by_contra hn
  have hp : h.object r = .plain := getD_of_size_le (Nat.le_of_not_lt hn)
  have hk := kind_of_isError hr
  rw [hp] at hk
  cases hk

end

namespace Evolves

variable {h h' h'' : Heap}

theorem refl (h : Heap) : h.Evolves h := ⟨Nat.le_refl _, fun _ _ => .same _⟩

theorem trans (h₁ : h.Evolves h') (h₂ : h'.Evolves h'') : h.Evolves h'' where
  size := Nat.le_trans h₁.size h₂.size
  kinds r hr := (h₁.kinds r hr).trans (h₂.kinds r (Nat.lt_of_lt_of_le hr h₁.size))

theorem of_objects (he : h'.objects = h.objects) : h.Evolves h' where
  size := Nat.le_of_eq (congrArg Array.size he).symm
  kinds r _ := by
    rw [object, object, he]
    exact .same _

theorem alloc (h : Heap) (o : Object) : h.Evolves (h.alloc o).2 where
  size := by simp [Heap.alloc]
  kinds r hr := by
    have ho : (h.alloc o).2.object r = h.object r :=
      (getD_push h.objects o r.index).trans (if_neg (Nat.ne_of_lt hr))
    rw [ho]
    exact .same _

theorem update (h : Heap) (r : ObjectRef) {f : Object → Object}
    (hf : ∀ o : Object, o.kind.Stays (f o).kind) : h.Evolves (h.update r f) where
  size := by simp [Heap.update]
  kinds q hq := by
    have ho : (h.update r f).object q =
        if r.index = q.index ∧ q.index < h.objects.size then f (h.object q) else h.object q :=
      getD_modify h.objects r.index q.index f
    rw [ho]
    split
    · exact hf _
    · exact .same _

theorem isError (he : h.Evolves h') {v : Value} (hv : h.isError v = true) :
    h'.isError v = true := by
  cases v with
  | object r =>
    have hk := kind_of_isError hv
    have hr := size_of_isError hv
    have hs := he.kinds r hr
    rw [hk] at hs
    generalize hk' : (h'.object r).kind = k at hs
    cases hs
    simp [Heap.isError, hk']
  | _ => cases hv

end Evolves

end Heap

/-! ## Regimes -/

/-- Two worlds that differ in how the heap has evolved and in what was added to the record of
crossings. -/
structure World.Aside (w w' : World) : Prop where
  heap : w.heap.Evolves w'.heap
  rest : { w with heap := w'.heap, crossings := w'.crossings } = w'
  record : w.crossings.toList <+: w'.crossings.toList

/-- A preorder on worlds that lets foreign code do what it does by itself. -/
structure Regime (R : World → World → Prop) : Prop where
  aside : ∀ {w w'}, w.Aside w' → R w w'
  trans : ∀ {w w' w''}, R w w' → R w' w'' → R w w''

theorem World.Aside.ofHeap {w : World} {heap : Heap} (he : w.heap.Evolves heap) :
    w.Aside { w with heap } :=
  ⟨he, rfl, List.prefix_rfl⟩

theorem World.Aside.refl (w : World) : w.Aside w := .ofHeap (.refl _)

theorem World.record_cross (w : World) (crossing : Crossing) :
    w.crossings.toList <+: (w.cross crossing).crossings.toList := by
  rw [cross, Array.toList_push]
  exact List.prefix_append _ _

theorem World.Aside.cross (w : World) (crossing : Crossing) : w.Aside (w.cross crossing) :=
  ⟨.refl _, rfl, w.record_cross crossing⟩

theorem World.Aside.trans {w w' w'' : World} (h₁ : w.Aside w') (h₂ : w'.Aside w'') :
    w.Aside w'' where
  heap := h₁.heap.trans h₂.heap
  rest := by
    have h := h₂.rest
    rw [← h₁.rest] at h
    exact h
  record := h₁.record.trans h₂.record

theorem Regime.refl {R : World → World → Prop} (hR : Regime R) (w : World) : R w w :=
  hR.aside (.refl w)

/-- All that an engine runs keeps to a regime. -/
def Engine.Obeys (E : Engine) (R : World → World → Prop) : Prop :=
  ∀ room c receiver arguments w, R w (E.run room c receiver arguments w).2

namespace Effect

variable {ε δ α β γ : Type}

/-- An effect that keeps to whatever regime its engine keeps to. -/
def Foreign (x : Effect ε α) : Prop :=
  ∀ R, Regime R → ∀ E : Engine, E.Obeys R → ∀ w, R w (x E w).2

namespace Foreign

variable {x : Effect ε α} {f : α → Effect ε β}

theorem of_aside (h : ∀ E, ∀ w : World, w.Aside (x E w).2) : x.Foreign := fun _ hR E _ w => hR.aside (h E w)

theorem of_still (h : ∀ E w, (x E w).2 = w) : x.Foreign := .of_aside fun E w => by
  rw [h E w]
  exact .refl w

@[grind ←] theorem pure (a : α) : (Pure.pure a : Effect ε α).Foreign := .of_still fun _ _ => rfl

@[grind ←] theorem bind (hx : x.Foreign) (hf : ∀ a, (f a).Foreign) : (x >>= f).Foreign := by
  intro R hR E hE w
  have h := hx R hR E hE w
  change R w (Effect.bind x f E w).2
  rw [Effect.bind]
  rcases hr : x E w with ⟨_ | a, w'⟩
  · rw [hr] at h
    exact h
  · rw [hr] at h
    exact hR.trans h (hf a R hR E hE w')

@[grind ←] theorem world : (Effect.world : Effect ε World).Foreign := .of_still fun _ _ => rfl

@[grind ←] theorem room : (Effect.room : Effect ε Nat).Foreign := .of_still fun _ _ => rfl

@[grind ←] theorem fuel : (Effect.fuel : Effect ε Nat).Foreign := .of_still fun _ _ => rfl

@[grind ←] theorem fail (e : ε) : (Effect.fail e : Effect ε α).Foreign := .of_still fun _ _ => rfl

@[grind ←] theorem exhausted : (Effect.exhausted : Effect ε α).Foreign := .of_still fun _ _ => rfl

theorem act {g : World → α × World} (h : ∀ w : World, w.Aside (g w).2) :
    (Effect.act g : Effect ε α).Foreign :=
  .of_aside fun _ w => h w

theorem change {g : World → World} (h : ∀ w : World, w.Aside (g w)) :
    (Effect.change g : Effect ε Unit).Foreign :=
  .of_aside fun _ w => h w

@[grind ←] theorem taking (size : Nat) (hx : x.Foreign) : (x.taking size).Foreign :=
  fun R hR E hE w => hx R hR { E with room := E.room - size } hE w

@[grind ←] theorem run (c : Callable) (receiver : Value) (arguments : List Value) :
    (Effect.run c receiver arguments).Foreign :=
  fun _ _ E hE w => hE E.room c receiver arguments w

@[grind ←] theorem attempt (hx : x.Foreign) : (x.attempt : Effect δ (Except ε α)).Foreign := by
  intro R hR E hE w
  have h := hx R hR E hE w
  rw [Effect.attempt]
  rcases hr : x E w with ⟨s | a, w'⟩
  · rw [hr] at h
    cases s <;> exact h
  · rw [hr] at h
    exact h

end Foreign

end Effect

end ProxySession
