import ProxySession.Proofs.HostFailures
import ProxySession.Proofs.Integers

/-!
# What escapes from foreign code

Each foreign read or call of a context runs some foreign code. If an exception escapes from that code,
the error of the operation is settled by the tag that the exception shows and by the failures that wait
in the context then.
-/

namespace ProxySession

open Effect

variable {c : ContextId} {E : Engine} {w w₁ w₂ : World}

/-! ## Runs of effects -/

namespace Effect

variable {ε α β γ : Type} {x : Effect ε α} {f : α → Effect ε β} {stop : Stop ε}

theorem bind_assoc (x : Effect ε α) (f : α → Effect ε β) (g : β → Effect ε γ) :
    x >>= f >>= g = x >>= fun a => f a >>= g := by
  funext E w
  rw [bind_eq, bind_eq, bind_eq]
  rcases x E w with ⟨_ | a, w'⟩ <;> rfl

theorem map_eq (g : α → β) (x : Effect ε α) (E : Engine) (w : World) :
    (g <$> x) E w = ((x E w).1.map g, (x E w).2) := by
  change (x >>= fun a => pure (g a)) E w = _
  rw [bind_eq]
  rcases x E w with ⟨_ | a, w'⟩ <;> rfl

theorem map_ok {g : α → β} {b : β} (h : (g <$> x) E w = (.ok b, w₁)) :
    ∃ a, x E w = (.ok a, w₁) ∧ g a = b := by
  rw [map_eq] at h
  rcases hx : x E w with ⟨_ | a, w'⟩ <;> rw [hx] at h
  · cases h
  · cases h
    exact ⟨a, rfl, rfl⟩

theorem map_map (f : β → γ) (g : α → β) (x : Effect ε α) : f <$> g <$> x = (fun a => f (g a)) <$> x := by
  funext E w
  rw [map_eq, map_eq, map_eq]
  rcases x E w with ⟨_ | a, w'⟩ <;> rfl

theorem map_id (x : Effect ε α) : (fun a => a) <$> x = x := by
  funext E w
  rw [map_eq]
  rcases x E w with ⟨_ | a, w'⟩ <;> rfl

theorem map_of_bind (g : β → γ) (x : Effect ε α) (f : α → Effect ε β) :
    g <$> (x >>= f) = x >>= fun a => g <$> f a := by
  funext E w
  rw [map_eq, bind_eq, bind_eq]
  rcases x E w with ⟨_ | a, w'⟩
  · rfl
  · change _ = (g <$> f a) E w'
    rw [map_eq]

theorem bind_of_map (g : α → β) (x : Effect ε α) (f : β → Effect ε γ) :
    (g <$> x) >>= f = x >>= fun a => f (g a) := by
  funext E w
  rw [bind_eq, bind_eq, map_eq]
  rcases x E w with ⟨_ | a, w'⟩ <;> rfl

theorem world_bind (f : World → Effect ε β) (E : Engine) (w : World) :
    (world >>= f) E w = f w E w := rfl

theorem bind_of_ok {a : α} (h : x E w = (.ok a, w₁)) : (x >>= f) E w = f a E w₁ := by
  rw [bind_eq, h]

theorem bind_of_error (h : x E w = (.error stop, w₁)) : (x >>= f) E w = (.error stop, w₁) := by
  rw [bind_eq, h]

theorem bind_ok {b : β} (h : (x >>= f) E w = (.ok b, w₂)) :
    ∃ a w₁, x E w = (.ok a, w₁) ∧ f a E w₁ = (.ok b, w₂) := by
  rcases hx : x E w with ⟨stop | a, w₁⟩
  · rw [bind_of_error hx] at h
    cases h
  · exact ⟨a, w₁, rfl, (bind_of_ok hx).symm.trans h⟩

theorem bind_error (h : (x >>= f) E w = (.error stop, w₂)) :
    x E w = (.error stop, w₂) ∨ ∃ a w₁, x E w = (.ok a, w₁) ∧ f a E w₁ = (.error stop, w₂) := by
  rcases hx : x E w with ⟨stop' | a, w₁⟩
  · rw [bind_of_error hx] at h
    cases h
    exact .inl rfl
  · exact .inr ⟨a, w₁, rfl, (bind_of_ok hx).symm.trans h⟩

theorem bind_fail_bind (x : Effect ε ε) (f : α → Effect ε β) (E : Engine) (w : World) :
    ((x >>= fail : Effect ε α) >>= f) E w = (x >>= fail : Effect ε β) E w :=
  congrFun (congrFun (bind_assoc x fail f) E) w

end Effect

/-! ## Reads and calls -/

theorem Operation.function_eq (v : Value) (E : Engine) (w : World) : Operation.function v E w =
    if w.heap.isFunction v = true then (.ok v, w)
    else (.error (.failed (.shapeMismatch "function" (w.heap.typeName v))), w) := by
  rw [Operation.function, world_bind]
  split <;> rfl

section

variable {α : Type} {x : Eval α} {thrown : Value} {a : α}

/-- A read ends as its code does, but what the code throws becomes an error. -/
theorem ContextId.reading_run (c : ContextId) (x : Eval α) (E : Engine) (w : World) :
    c.reading x E w = match x E w with
      | (.ok a, w₁) => (.ok a, w₁)
      | (.error (.failed thrown), w₁) => (c.foreignError thrown >>= fail : Operation α) E w₁
      | (.error .exhausted, w₁) => (.error .exhausted, w₁)
      | (.error .senseless, w₁) => (.error .senseless, w₁) := by
  rw [reading, handle, bind_eq, attempt]
  rcases x E w with ⟨stop | a, w₁⟩
  · cases stop <;> rfl
  · rfl

theorem ContextId.reading_of_thrown (h : x E w = (.error (.failed thrown), w₁)) :
    c.reading x E w = (c.foreignError thrown >>= fail : Operation α) E w₁ := by
  rw [reading_run, h]

theorem ContextId.reading_of_ok (h : x E w = (.ok a, w₁)) : c.reading x E w = (.ok a, w₁) := by
  rw [reading_run, h]

theorem ContextId.reading_ok (h : c.reading x E w = (.ok a, w₂)) : x E w = (.ok a, w₂) := by
  rw [reading_run] at h
  rcases hx : x E w with ⟨stop | b, w₁⟩ <;> rw [hx] at h
  · cases stop with
    | failed thrown =>
      obtain ⟨e, w', _, hfail⟩ := bind_ok h
      cases hfail
    | _ => cases h
  · cases h
    rfl

theorem ContextId.reading_failed {e : SessionError}
    (h : c.reading x E w = (.error (.failed e), w₂)) :
    ∃ thrown w₁, x E w = (.error (.failed thrown), w₁) := by
  rw [reading_run] at h
  rcases hx : x E w with ⟨stop | b, w₁⟩ <;> rw [hx] at h
  · cases stop with
    | failed thrown => exact ⟨thrown, w₁, rfl⟩
    | _ => cases h
  · cases h

theorem ContextId.calling_of_thrown (h : x E w = (.error (.failed thrown), w₁)) :
    c.calling x E w = (c.foreignError thrown >>= fail : Operation α) E w₁ := by
  rw [calling, bind_eq, reading_of_thrown h]
  exact bind_fail_bind (c.foreignError thrown) _ E w₁

theorem ContextId.calling_ok (h : c.calling x E w = (.ok a, w₂)) :
    ∃ w₁ : World, w₂ = w₁.settled c := by
  obtain ⟨b, w₁, _, hsettle⟩ := bind_ok h
  cases hsettle
  exact ⟨w₁, rfl⟩

theorem ContextId.calling_failed {e : SessionError}
    (h : c.calling x E w = (.error (.failed e), w₂)) :
    ∃ thrown w₁, x E w = (.error (.failed thrown), w₁) := by
  rcases bind_error h with hr | ⟨b, w₁, _, hsettle⟩
  · exact reading_failed hr
  · cases hsettle

end

/-- A read or a call of foreign code. -/
inductive ForeignOperation where
  | property (r : ObjectRef) (name : String)
  | element (r : ObjectRef) (i : Nat)
  | function (f : Value) (arguments : List Value)
  | method (r : ObjectRef) (name : String) (arguments : List Value)

namespace ForeignOperation

/-- The foreign code that the operation runs. -/
def code : ForeignOperation → Eval Value
  | property r name => Eval.getProperty r (.ofString name)
  | element r i => Eval.getProperty r (.ofIndex i)
  | function f arguments => Eval.callValue f .undefined arguments
  | method r name arguments => do
    let f ← Eval.getProperty r (.ofString name)
    if (← world).heap.isFunction f then Eval.callValue f (.object r) arguments else pure f

def run (c : ContextId) : ForeignOperation → Operation Value
  | property r name => c.property r name
  | element r i => c.element r i
  | function f arguments => c.callFunction f arguments
  | method r name arguments => c.callMethod r name arguments

def isCall : ForeignOperation → Bool
  | property _ _ | element _ _ => false
  | function _ _ | method _ _ _ => true

variable {a : ForeignOperation} {thrown : Value}

theorem code_foreign (a : ForeignOperation) : a.code.Foreign := by
  cases a <;> unfold code <;> grind

theorem run_neutral {kept : List Reference} (c : ContextId) (a : ForeignOperation) :
    (a.run c).Neutral kept := by
  cases a <;> unfold run <;> grind

section

variable {r : ObjectRef} {name : String} {f : Value} {arguments : List Value}

theorem code_method (h : Eval.getProperty r (.ofString name) E w = (.ok f, w₁)) :
    (method r name arguments).code E w =
      if w₁.heap.isFunction f then Eval.callValue f (.object r) arguments E w₁ else (.ok f, w₁) := by
  rw [code, bind_of_ok h]
  change (if w₁.heap.isFunction f = true then Eval.callValue f (.object r) arguments
    else pure f : Eval Value) E w₁ = _
  split <;> rfl

theorem run_method (h : Eval.getProperty r (.ofString name) E w = (.ok f, w₁)) :
    (method r name arguments).run c E w =
      if w₁.heap.isFunction f then c.calling (Eval.callValue f (.object r) arguments) E w₁
      else (.error (.failed (.shapeMismatch "function" (w₁.heap.typeName f))), w₁) := by
  rw [run, ContextId.callMethod, ContextId.property, bind_of_ok (ContextId.reading_of_ok h), bind_eq,
    Operation.function_eq]
  by_cases hfunction : w₁.heap.isFunction f = true
  · rw [if_pos hfunction, if_pos hfunction]
  · rw [if_neg hfunction, if_neg hfunction]

end

/-- What escapes from the code becomes the error of the operation. -/
theorem run_of_thrown (h : a.code E w = (.error (.failed thrown), w₁)) :
    a.run c E w = (c.foreignError thrown >>= fail : Operation Value) E w₁ := by
  cases a with
  | property r name => exact ContextId.reading_of_thrown h
  | element r i => exact ContextId.reading_of_thrown h
  | function f arguments => exact ContextId.calling_of_thrown h
  | method r name arguments =>
    rcases hf : Eval.getProperty r (.ofString name) E w with ⟨stop | f, w'⟩
    · rw [code, bind_of_error hf] at h
      cases h
      rw [run, ContextId.callMethod, bind_eq, ContextId.property, ContextId.reading_of_thrown hf]
      exact bind_fail_bind (c.foreignError thrown) _ E w₁
    · rw [code_method hf] at h
      rw [run_method hf]
      split at h
      · next hfunction =>
        rw [if_pos hfunction]
        exact ContextId.calling_of_thrown h
      · cases h

/-- An operation fails with what escapes from its code, or because the method that it should call is not
a function. -/
theorem run_failed {e : SessionError} (h : a.run c E w = (.error (.failed e), w₂)) :
    (∃ thrown w₁, a.code E w = (.error (.failed thrown), w₁)) ∨
      ∃ actual, e = .shapeMismatch "function" actual := by
  cases a with
  | property r name => exact .inl (ContextId.reading_failed h)
  | element r i => exact .inl (ContextId.reading_failed h)
  | function f arguments => exact .inl (ContextId.calling_failed h)
  | method r name arguments =>
    rcases bind_error h with hp | ⟨f, w', hp, _⟩
    · obtain ⟨thrown, w₁, hx⟩ := ContextId.reading_failed hp
      exact .inl ⟨thrown, w₁, bind_of_error hx⟩
    · have hf := ContextId.reading_ok hp
      rw [run_method hf] at h
      split at h
      · next hfunction =>
        rw [code_method hf, if_pos hfunction]
        exact .inl (ContextId.calling_failed h)
      · cases h
        exact .inr ⟨_, rfl⟩

/-- A call that succeeds has ended all waiting. -/
theorem settled_of_ok {v : Value} (ha : a.isCall = true) (h : a.run c E w = (.ok v, w₂)) :
    ∃ w₁ : World, w₂ = w₁.settled c := by
  cases a with
  | property r name => cases ha
  | element r i => cases ha
  | function f arguments => exact ContextId.calling_ok h
  | method r name arguments =>
    obtain ⟨f, w', hp, _⟩ := bind_ok h
    rw [run_method (ContextId.reading_ok hp)] at h
    split at h
    · exact ContextId.calling_ok h
    · cases h

end ForeignOperation

/-! ## What never fails -/

namespace Effect

variable {ε δ α β : Type} {x : Effect ε α} {f : α → Effect ε β}

/-- An effect that never fails, though it may run out of nesting. -/
def Unfailing (x : Effect ε α) : Prop := ∀ E w e w', x E w ≠ (.error (.failed e), w')

namespace Unfailing

@[grind ←] theorem pure (a : α) : (Pure.pure a : Effect ε α).Unfailing := fun _ _ _ _ h => by
  cases h

@[grind ←] theorem world : (Effect.world : Effect ε World).Unfailing := fun _ _ _ _ h => by
  cases h

@[grind ←] theorem bind (hx : x.Unfailing) (hf : ∀ a, (f a).Unfailing) : (x >>= f).Unfailing := by
  intro E w e w' h
  rcases bind_error h with hfirst | ⟨a, w₁, _, hrest⟩
  · exact hx _ _ _ _ hfirst
  · exact hf a _ _ _ _ hrest

@[grind ←] theorem attempt (x : Effect ε α) :
    (x.attempt : Effect δ (Except ε α)).Unfailing := by
  intro E w e w' h
  rw [Effect.attempt] at h
  split at h <;> cases h

end Unfailing

end Effect

@[grind ←] theorem Eval.errorText_unfailing {ε : Type} (r : ObjectRef) (name : String) :
    (errorText r name : Effect ε (Option String)).Unfailing := by
  unfold errorText
  grind

theorem Eval.thrownText_unfailing {ε : Type} (thrown : Value) :
    (thrownText thrown : Effect ε String).Unfailing := by
  unfold thrownText
  grind

@[grind ←] theorem ContextId.thrownTag_unfailing (thrown : Value) : (thrownTag thrown).Unfailing := by
  unfold thrownTag
  grind

/-! ## Tags -/

/-- The report of a thrown value: a foreign failure with the value's text. -/
def Operation.reportForeign {α : Type} (thrown : Value) : Operation α := do
  fail (.foreign (← Eval.thrownText thrown))

/-- What becomes of a thrown value, by the failure that is recovered. -/
def Operation.resurface (thrown : Value) : Option HostFailure → Operation Value
  | some φ => fail φ.error
  | none => reportForeign thrown

def HostFailure.bears (tag : Option Binary64) (φ : HostFailure) : Bool :=
  tag.any fun x => x.numEq (.ofInt φ.tag)

/-- The exception of a failure shows the failure's tag. -/
def HostFailure.Intact (φ : HostFailure) (heap : Heap) : Prop :=
  heap.lookup φ.exception ContextId.tagProperty = some (.data (.ofBinary64 (.ofInt φ.tag)))

namespace ContextId

variable {thrown : Value} {φ : HostFailure}

theorem takePending_apply {ε : Type} (c : ContextId) (E : Engine) (w : World) :
    (c.takePending : Effect ε (List HostFailure)) E w =
      (.ok (w.context c).pending, w.settled c) := rfl

theorem getProperty_none {r : ObjectRef} {key : PropertyKey} (h : w.heap.lookup r key = none) :
    Eval.getProperty r key E w = (.ok .undefined, w) := by
  have hp : w.heap.provided (.object r) key = none := h
  rw [Eval.getProperty, Eval.read, world_bind, hp]
  rfl

theorem getProperty_data {r : ObjectRef} {key : PropertyKey} {v : Value}
    (h : w.heap.lookup r key = some (.data v)) : Eval.getProperty r key E w = (.ok v, w) := by
  have hp : w.heap.provided (.object r) key = some (.data v) := h
  rw [Eval.getProperty, Eval.read, world_bind, hp]
  rfl

theorem thrownTag_of_read {r : ObjectRef} {v : Value} (he : w.heap.isError (.object r) = true)
    (h : Eval.getProperty r tagProperty E w = (.ok v, w)) :
    thrownTag (.object r) E w = (.ok v.number?, w) := by
  change (if w.heap.isError (.object r) then _ else _ : Operation (Option Binary64)) E w = _
  rw [if_pos he, bind_eq, attempt, h]
  rfl

theorem thrownTag_untagged
    (h : ∀ r, thrown = .object r → w.heap.isError (.object r) = true →
      w.heap.lookup r tagProperty = none) :
    thrownTag thrown E w = (.ok none, w) := by
  cases thrown with
  | object r =>
    by_cases he : w.heap.isError (.object r) = true
    · exact thrownTag_of_read he (getProperty_none (h r rfl he))
    · change (if w.heap.isError (.object r) then _ else _ : Operation (Option Binary64)) E w = _
      rw [if_neg he]
      rfl
  | _ => rfl

theorem thrownTag_intact (he : w.heap.isError (.object φ.exception) = true)
    (hi : φ.Intact w.heap) (h0 : φ.tag ≠ 0) (ht : φ.tag ≤ 2 ^ 53) :
    thrownTag (.object φ.exception) E w = (.ok (some (.ofInt φ.tag)), w) := by
  have hnumber := Value.number_ofBinary64_ofInt h0 ht
  rw [thrownTag_of_read he (getProperty_data hi), hnumber]

/-! ## Errors -/

/-- A thrown value becomes an error in three steps: what waits is taken, the tag is read, and the first
failure that bears it is looked for. -/
theorem foreignError_run (c : ContextId) (thrown : Value) (E : Engine) (w : World) :
    (c.foreignError thrown >>= fail : Operation Value) E w =
      (thrownTag thrown >>= fun tag =>
        Operation.resurface thrown ((w.context c).pending.find? (·.bears tag))) E (w.settled c) := by
  have hresurface : (c.foreignError thrown >>= fail : Operation Value) =
      c.recovered thrown >>= Operation.resurface thrown := by
    rw [foreignError, bind_assoc]
    congr 1
    funext φ
    cases φ with
    | some φ => rfl
    | none =>
      exact bind_assoc (Eval.thrownText thrown) (fun text => pure (SessionError.foreign text)) fail
  -- The list is taken before the tag is read, so foreign code that provides the tag cannot change it.
  rw [hresurface, recovered, bind_assoc, bind_eq, takePending_apply]
  change (thrownTag thrown >>= (fun tag => pure _) >>= Operation.resurface thrown : Operation Value) E
    (w.settled c) = _
  rw [bind_assoc]
  rfl

theorem foreignError_of_tag {tag : Option Binary64}
    (h : thrownTag thrown E (w.settled c) = (.ok tag, w.settled c)) :
    (c.foreignError thrown >>= fail : Operation Value) E w =
      Operation.resurface thrown ((w.context c).pending.find? (·.bears tag)) E (w.settled c) := by
  rw [foreignError_run, bind_of_ok h]

/-- A failure bears the tag of another one exactly if it has the same one. -/
theorem bears_ofInt {ψ : HostFailure} (h0 : φ.tag ≠ 0) (ht : φ.tag ≤ 2 ^ 53) (h0' : ψ.tag ≠ 0)
    (ht' : ψ.tag ≤ 2 ^ 53) : ψ.bears (some (.ofInt φ.tag)) = true ↔ ψ.tag = φ.tag := by
  rw [HostFailure.bears, Option.any_some, Binary64.numEq_ofInt h0 ht h0' ht', decide_eq_true_iff]
  exact eq_comm

/-- The exception of a failure, of whatever context, is looked for by its tag. -/
theorem foreignError_intact (hb : w.Booked) (hcount : (w.context φ.context).lastTag ≤ 2 ^ 53)
    (hφ : φ ∈ w.hostFailures) (hi : φ.Intact w.heap) :
    (c.foreignError (.object φ.exception) >>= fail : Operation Value) E w =
      Operation.resurface (.object φ.exception)
        ((w.context c).pending.find? (·.bears (some (.ofInt φ.tag)))) E (w.settled c) := by
  obtain ⟨h0, hle⟩ := hb.tags φ hφ
  exact foreignError_of_tag (thrownTag_intact (hb.errors φ hφ) hi h0 (hle.trans hcount))

section

variable (hb : w.Booked) (hcount : (w.context c).lastTag ≤ 2 ^ 53) (hφ : φ ∈ w.hostFailures)
  (hc : φ.context = c)

include hb hcount hφ hc

/-- Among the failures that wait, a tag finds the one that it was given to. -/
theorem bears_iff {ψ : HostFailure} (hψ : ψ ∈ (w.context c).pending) :
    ψ.bears (some (.ofInt φ.tag)) = true ↔ ψ = φ := by
  obtain ⟨hψ, hψc⟩ := hb.of_waiting hψ
  obtain ⟨h0, hle⟩ := hb.tags φ hφ
  obtain ⟨h0', hle'⟩ := hb.tags ψ hψ
  rw [hc] at hle
  rw [hψc] at hle'
  rw [bears_ofInt h0 (hle.trans hcount) h0' (hle'.trans hcount)]
  exact ⟨hb.eq_of_tag hψ hφ (hψc.trans hc.symm), congrArg HostFailure.tag⟩

theorem find_bearer (hwaits : φ ∈ (w.context c).pending) :
    (w.context c).pending.find? (·.bears (some (.ofInt φ.tag))) = some φ := by
  rcases hfind : (w.context c).pending.find? (·.bears (some (.ofInt φ.tag))) with _ | ψ
  · exact absurd ((bears_iff hb hcount hφ hc hwaits).2 rfl) (List.find?_eq_none.1 hfind φ hwaits)
  · have hψ := List.mem_of_find?_eq_some hfind
    rw [hfind, (bears_iff hb hcount hφ hc hψ).1 (List.find?_some hfind)]

/-- The exception of a failure that waits becomes the error of the failure. -/
theorem foreignError_of_waiting (hi : φ.Intact w.heap) (hwaits : φ ∈ (w.context c).pending) :
    (c.foreignError (.object φ.exception) >>= fail : Operation Value) E w =
      (.error (.failed φ.error), w.settled c) := by
  rw [foreignError_intact hb (hc ▸ hcount) hφ hi, find_bearer hb hcount hφ hc hwaits]
  rfl

/-- The exception of a failure that does not wait is foreign. -/
theorem foreignError_of_over (hi : φ.Intact w.heap) (hover : φ ∉ (w.context c).pending) :
    (c.foreignError (.object φ.exception) >>= fail : Operation Value) E w =
      (Operation.reportForeign (.object φ.exception) : Operation Value) E (w.settled c) := by
  have hnone : (w.context c).pending.find? (·.bears (some (.ofInt φ.tag))) = none :=
    List.find?_eq_none.2 fun ψ hψ ht => hover ((bears_iff hb hcount hφ hc hψ).1 ht ▸ hψ)
  rw [foreignError_intact hb (hc ▸ hcount) hφ hi, hnone]
  rfl

end

theorem foreignError_of_untagged
    (h : ∀ r, thrown = .object r → w.heap.isError (.object r) = true →
      w.heap.lookup r tagProperty = none) :
    (c.foreignError thrown >>= fail : Operation Value) E w =
      (Operation.reportForeign thrown : Operation Value) E (w.settled c) := by
  have hnone : (w.context c).pending.find? (·.bears none) = none :=
    List.find?_eq_none.2 fun _ _ ht => by cases ht
  have htag : thrownTag thrown E (w.settled c) = (.ok none, w.settled c) := thrownTag_untagged h
  rw [foreignError_of_tag htag, hnone]
  rfl

/-- Whatever a thrown value shows, the error is foreign or that of a failure that waited. -/
theorem foreignError_failed {e : SessionError}
    (h : (c.foreignError thrown >>= fail : Operation Value) E w = (.error (.failed e), w₂)) :
    (∃ φ ∈ (w.context c).pending, e = φ.error) ∨ ∃ text, e = .foreign text := by
  rw [foreignError_run] at h
  rcases bind_error h with htag | ⟨tag, w₁, _, hresurface⟩
  · exact absurd htag (thrownTag_unfailing thrown _ _ _ _)
  · rcases hfind : (w.context c).pending.find? (·.bears tag) with _ | φ <;> rw [hfind] at hresurface
    · rcases bind_error hresurface with htext | ⟨text, w₃, _, hfail⟩
      · exact absurd htext (Eval.thrownText_unfailing thrown _ _ _ _)
      · cases hfail
        exact .inr ⟨text, rfl⟩
    · cases hresurface
      exact .inl ⟨φ, List.mem_of_find?_eq_some hfind, rfl⟩

end ContextId

/-! ## Escapes in a session -/

namespace Session

variable {heap : Heap}

/-- Until an exception escapes from the code of an operation, the code moves the session. -/
theorem escape_passes (hw : Arrived heap w) {a : ForeignOperation} {fuel room : Nat} {thrown : Value}
    (hescape : a.code (Engine.ofFuel fuel room) w = (.error (.failed thrown), w₁)) :
    Passes heap w w₁ := by
  have hpasses := hw.passes a.code_foreign.neutral fuel room
  rwa [hescape] at hpasses

end Session

/-! ## A sample session -/

deriving instance DecidableEq for HostFailure, Content

instance (φ : HostFailure) (heap : Heap) : Decidable (φ.Intact heap) :=
  inferInstanceAs (Decidable (_ = _))

def Effect.failure? {ε α : Type} : Except (Stop ε) α → Option ε
  | .error (.failed e) => some e
  | _ => none

theorem Effect.run_of_failure {ε α β : Type} {x : Except (Stop ε) α × β} {e : ε}
    (h : failure? x.1 = some e) : x = (.error (.failed e), x.2) := by
  obtain ⟨result, b⟩ := x
  cases result with
  | ok a => cases h
  | error stop =>
    cases stop with
    | failed e' =>
      cases h
      rfl
    | _ => cases h

namespace Session

/-- A heap with a parse result and an object with functions and a getter. `rethrow` calls what it is given
and, when that throws, calls something else before it throws the same again. `impersonate` makes an error
inherit from what it catches and throws that. `forgive` saves what it catches for `throwSaved`, and so
does the getter, which calls what was given to `keep`. -/
def troubledHeap : Heap :=
  let reference (name : String) (i : Nat) : PropertyDescription :=
    ⟨.ofString name, .value (.object ⟨i⟩), true⟩
  let text (s : String) : Expr := .value (.ofString s)
  let object (i : Nat) : Expr := .value (.object ⟨i⟩)
  let call (f : Expr) : Expr := .call f (.value .undefined) []
  let saving (f : Expr) : Expr := .attempt (call f) (.set (object 11) (text "saved") .caught)
  .ofDescriptions
    [⟨"program", .plain, []⟩, ⟨"checker", .plain, []⟩,
      ⟨"createScanner", .function (.value .undefined), []⟩,
      ⟨"getNodeId", .function (.value (.int 7)), []⟩, ⟨"syntaxKinds", .plain, []⟩,
      ⟨"parse", .plain, [reference "program" 0, reference "checker" 1,
        reference "createScanner" 2, reference "getNodeId" 3, reference "syntaxKinds" 4]⟩,
      ⟨"object", .plain, [reference "quiet" 3, reference "rethrow" 7, reference "impersonate" 8,
        reference "keep" 9, reference "throwSaved" 10, reference "forgive" 13,
        ⟨.ofString "recovers", .getter (saving (.get (object 11) (text "kept"))), true⟩]⟩,
      ⟨"rethrow", .function (.attempt (call (.argument 0))
        (.sequence [call (.argument 1), .raise .caught])), []⟩,
      ⟨"impersonate", .function (.attempt (call (.argument 0)) (.sequence
        [.call (.call (.get .caught (text "__lookupSetter__")) .caught [text "__proto__"])
          (object 12) [.caught], .raise (object 12)])), []⟩,
      ⟨"keep", .function (.set (object 11) (text "kept") (.argument 0)), []⟩,
      ⟨"throwSaved", .function (.raise (.get (object 11) (text "saved"))), []⟩,
      ⟨"store", .plain, []⟩, ⟨"other", .error (.ofString "unrelated"), []⟩,
      ⟨"forgive", .function (saving (.argument 0)), []⟩] #[]

/-- Opens a context, makes a function of the host that fails and one that makes a call, and keeps the
first one for the getter. -/
def troubledSteps : List Step :=
  [.mk (.open (.value (.object ⟨5⟩)) {}) "cx" (some "cx"),
    .mk (.hostFunction (.fail (.setup "refused"))) "cx" (some "failing"),
    .mk (.hostFunction (.step (.mk (.invoke (.value (.object ⟨6⟩)) "quiet" []) "cx" none) .done))
      "cx" (some "asking"),
    .mk (.invoke (.value (.object ⟨6⟩)) "keep" [.variable "failing"]) "cx" none]

def troubledWorld : World := last 6 troubledHeap [] troubledSteps

theorem troubledWorld_arrived : Arrived troubledHeap troubledWorld := last_arrived

def troubledEngine : Engine := Engine.ofFuel 6 stackSize

def troubledValue (name : String) : Value :=
  match troubledWorld.lookup name with
  | some (.foreign v) => v
  | _ => .undefined

end Session

end ProxySession
