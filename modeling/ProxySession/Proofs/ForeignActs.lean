import ProxySession.Proofs.Regimes

/-!
# Acts of foreign code

Effects that are made of what foreign code can do by itself: read and change the heap, leave a record, fail,
and call the functions of its engine. What holds of these acts and is kept by the formers of effects holds
of every effect made of them, by induction on how it is made. The rules are tagged, so `grind` follows the
text of a definition.
-/

namespace ProxySession

namespace Effect

/-- An effect made of the acts of foreign code. What it reads of the world is the heap. -/
inductive ForeignActs : {ε α : Type} → Effect ε α → Prop
  | pure {ε α : Type} (a : α) : ForeignActs (Pure.pure a : Effect ε α)
  | bind {ε α β : Type} {x : Effect ε α} {f : α → Effect ε β} (hx : ForeignActs x)
    (hf : ∀ a, ForeignActs (f a)) : ForeignActs (x >>= f)
  | read {ε α : Type} {f : World → Effect ε α} (he : ∀ w w', w'.heap = w.heap → f w' = f w)
    (hf : ∀ w, ForeignActs (f w)) : ForeignActs (Effect.world >>= f)
  | act {ε α : Type} {g : World → α × World} {f : Heap → α × Heap}
    (hg : ∀ w, g w = ((f w.heap).1, { w with heap := (f w.heap).2 })) (hf : ∀ h : Heap, h.Evolves (f h).2) :
    ForeignActs (Effect.act g : Effect ε α)
  | cross {ε : Type} {f : World → Crossing} (he : ∀ w w', w'.heap = w.heap → f w' = f w) :
    ForeignActs (Effect.change fun w => w.cross (f w) : Effect ε Unit)
  | fail {ε α : Type} (e : ε) : ForeignActs (Effect.fail e : Effect ε α)
  | exhausted {ε α : Type} : ForeignActs (Effect.exhausted : Effect ε α)
  | room {ε : Type} : ForeignActs (Effect.room : Effect ε Nat)
  | taking {ε α : Type} {x : Effect ε α} (size : Nat) (hx : ForeignActs x) : ForeignActs (x.taking size)
  | attempt {ε δ α : Type} {x : Effect ε α} (hx : ForeignActs x) :
    ForeignActs (x.attempt : Effect δ (Except ε α))
  | run (c : Callable) (receiver : Value) (arguments : List Value) :
    ForeignActs (Effect.run c receiver arguments)

attribute [grind ←] ForeignActs.pure ForeignActs.bind ForeignActs.read ForeignActs.fail
  ForeignActs.exhausted ForeignActs.room ForeignActs.taking ForeignActs.attempt ForeignActs.run

namespace ForeignActs

variable {ε δ α β γ : Type} {x : Effect ε α}

/-- An act on the heap is determined by what it does in a world of that heap alone. -/
theorem ofHeap {g : World → α × World}
    (hg : ∀ w, g w = ((g (.ofHeap w.heap)).1, { w with heap := (g (.ofHeap w.heap)).2.heap }))
    (he : ∀ h : Heap, h.Evolves (g (.ofHeap h)).2.heap) : (Effect.act g : Effect ε α).ForeignActs :=
  act (f := fun h => ((g (.ofHeap h)).1, (g (.ofHeap h)).2.heap)) hg he

theorem ofChange {g : World → World}
    (hg : ∀ w, g w = { w with heap := (g (.ofHeap w.heap)).heap })
    (he : ∀ h : Heap, h.Evolves (g (.ofHeap h)).heap) : (Effect.change g : Effect ε Unit).ForeignActs :=
  ofHeap (g := fun w => ((), g w)) (fun w => congrArg ((), ·) (hg w)) he

@[grind ←] theorem map (g : α → β) (hx : x.ForeignActs) : (g <$> x).ForeignActs := bind hx fun a => pure (g a)

@[grind ←] theorem handle {handler : ε → Effect δ α} (hx : x.ForeignActs) (hh : ∀ e, (handler e).ForeignActs) :
    (x.handle handler).ForeignActs := by
  unfold Effect.handle
  grind

@[grind ←] theorem collect {g : γ → Effect ε β} (hg : ∀ c, (g c).ForeignActs) (cs : List γ) :
    (Effect.collect g cs).ForeignActs := by
  induction cs with
  | nil => exact pure []
  | cons c rest ih =>
    unfold Effect.collect
    grind

/-- What is made of foreign acts keeps to whatever regime its engine keeps to. -/
@[grind ←] theorem foreign (hx : x.ForeignActs) : x.Foreign := by
  induction hx with
  | pure a => exact .pure a
  | bind _ _ ihx ihf => exact ihx.bind ihf
  | read _ _ ih => exact .bind .world ih
  | act hg hf =>
    refine .act fun w => ?_
    rw [hg]
    exact .ofHeap (hf w.heap)
  | cross _ => exact .change fun w => .cross w _
  | fail e => exact .fail e
  | exhausted => exact .exhausted
  | room => exact .room
  | taking size _ ih => exact ih.taking size
  | attempt _ ih => exact ih.attempt
  | run c receiver arguments => exact .run c receiver arguments

end ForeignActs

end Effect

end ProxySession
