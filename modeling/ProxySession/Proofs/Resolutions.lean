import ProxySession.Proofs.Conversions
import ProxySession.Proofs.Integers

/-!
# Resolutions as progress

A resolution computes a key and hands out the proxy of that key. Foreign code may compute the key, so it
is progress like any other; a token comes from a numbering of the context, which is ahead of what is on
record until the resolution ends.
-/

namespace ProxySession

open Effect

/-- A positive integer of at most 53 bits is read as the integer that it was written as. -/
theorem Value.int64_ofBinary64_ofInt {n : Nat} (h0 : n ≠ 0) (hn : n ≤ 2 ^ 53) :
    (Value.ofBinary64 (.ofInt n)).int64? = some (Int64.ofInt n) := by
  have hrange : -0x8000000000000000 ≤ (n : Int) ∧ (n : Int) < 0x8000000000000000 := by omega
  have hint : (Binary64.ofInt n).toInt? = some (n : Int) := by simpa using Binary64.toInt_ofInt h0 hn
  rw [ofBinary64, hint]
  dsimp only
  split
  · next h => simp [int64?, exactInt?, Int32.toInt_ofInt_of_le h.1 h.2.1, hrange]
  · simp [int64?, exactInt?, hint, hrange]

theorem Value.isAbsent_ofBinary64 (x : Binary64) : (Value.ofBinary64 x).isAbsent = false := by
  rw [ofBinary64]
  split
  · split <;> rfl
  · rfl

namespace ContextId

variable {c : ContextId} {w : World}

/-! ## Tokens -/

/-- The key for the number of an object in a numbering. -/
def tokenKey (i : Nat) (r : ObjectRef) (w : World) : Int64 :=
  Int64.ofInt (min ((w.numberings.getD i .empty).number r).1 (2 ^ 53) : Nat)

theorem number_pos (n : Numbering) (r : ObjectRef) : (n.number r).1 ≠ 0 := by
  rw [Numbering.number]
  split <;> exact Nat.succ_ne_zero _

theorem tokenKey_toInt (i : Nat) (r : ObjectRef) (w : World) :
    (tokenKey i r w).toInt = min ((w.numberings.getD i .empty).number r).1 (2 ^ 53) := by
  rw [tokenKey, Int64.toInt_ofInt_of_le (by omega) (by omega)]

theorem tokenSource_run (id : HandleId) (E : Engine) (w : World) :
    (∃ s, c.tokenSource id E w = (.error s, w)) ∨
      ∃ v i, (w.context c).custodian.get id = .ok v ∧ w.heap.tokenSource? v = some i ∧
        c.tokenSource id E w = (.ok i, w) := by
  simp only [tokenSource, value, bind_eq, world]
  rcases (w.context c).custodian.get id with e | v
  · exact .inl ⟨_, rfl⟩
  · simp only [Pure.pure, Effect.pure]
    rcases hi : w.heap.tokenSource? v with _ | i
    · exact .inl ⟨_, rfl⟩
    · exact .inr ⟨v, i, rfl, hi, rfl⟩

/-- A token is given at one stroke, while no foreign code runs. -/
theorem keyBy_token (r : ObjectRef) (E : Engine) (w : World) :
    (∃ s, c.keyBy .objectToken r E w = (.error s, w)) ∨
      ∃ v i, (w.context c).custodian.get (w.context c).identityToken = .ok v ∧
        w.heap.tokenSource? v = some i ∧
        c.keyBy .objectToken r E w = (.ok (tokenKey i r w), (w.numbered i r).settled c) := by
  have hread (n : Nat) (h0 : n ≠ 0) : (Conversion.required .toInt64
      (.ofBinary64 (.ofInt (min n (2 ^ 53) : Nat))) : Operation Int64) =
        pure (Int64.ofInt (min n (2 ^ 53) : Nat)) := by
    rw [Conversion.required, Value.isAbsent_ofBinary64, Conversion.toInt64, Conversion.ofOption,
      Value.int64_ofBinary64_ofInt (by omega) (by omega)]
    rfl
  have hrun : c.keyBy .objectToken r E w = (c.tokenSource (w.context c).identityToken >>= fun i =>
      (c.calling (Eval.identityToken i r)).located "identity token" >>= fun v =>
        (Conversion.required .toInt64 v).located "identity token") E w := rfl
  rw [hrun, bind_eq]
  rcases tokenSource_run (c := c) (w.context c).identityToken E w with ⟨s, hs⟩ | ⟨v, i, hv, hi, hs⟩
  · rw [hs]
    exact .inl ⟨s, rfl⟩
  · rw [hs]
    refine .inr ⟨v, i, hv, hi, ?_⟩
    have hcall : (c.calling (Eval.identityToken i r)).located "identity token" E w =
        (.ok (.ofBinary64 (.ofInt (min ((w.numberings.getD i .empty).number r).1 (2 ^ 53) : Nat))),
          (w.numbered i r).settled c) := rfl
    simp only [bind_eq, hcall, hread _ (number_pos _ r)]
    rfl

/-! ## Keys -/

variable {kept : List Reference}

@[grind ←] theorem nodeKey_nonRetaining (r : ObjectRef) : (c.nodeKey r).NonRetaining := by
  unfold nodeKey
  grind

/-- A key that is no token comes from foreign code. -/
theorem identityKey_nonRetaining {k : ProxyKind} (r : ObjectRef)
    (hk : (w.context c).rules.tokens k = false) :
    ∃ x : Operation Int64, x.NonRetaining ∧ ∀ E, c.identityKey k r E w = x E w := by
  have hkey (name : String) : (c.read r name .toInt64).NonRetaining := by grind
  cases k with
  | node => exact ⟨c.nodeKey r, c.nodeKey_nonRetaining r, fun _ => rfl⟩
  | type => exact ⟨_, hkey "id", fun _ => rfl⟩
  | symbol =>
    cases hr : (w.context c).rules.symbolIdentity with
    | objectToken => simp [IdentityRules.tokens, hr] at hk
    | property name =>
      refine ⟨_, hkey name, fun E => ?_⟩
      change c.keyBy (w.context c).rules.symbolIdentity r E w = _
      rw [hr]
      rfl
  | signature =>
    cases hr : (w.context c).rules.signatureIdentity with
    | objectToken => simp [IdentityRules.tokens, hr] at hk
    | property name =>
      refine ⟨_, hkey name, fun E => ?_⟩
      change c.keyBy (w.context c).rules.signatureIdentity r E w = _
      rw [hr]
      rfl

theorem identityKey_progress {k : ProxyKind} {E : Engine} (hE : E.Sound) (r : ObjectRef)
    (hk : (w.context c).rules.tokens k = false) (F : Multiset Reference) :
    Progress F w F (c.identityKey k r E w).2 := by
  obtain ⟨x, hx, hrun⟩ := identityKey_nonRetaining (c := c) r hk
  have hneutral : x.Neutral [] := hx.neutral
  rw [hrun]
  exact hneutral E hE F w (by simp)

/-- Any other key is a token. -/
theorem identityKey_token {k : ProxyKind} (r : ObjectRef) (E : Engine)
    (hk : (w.context c).rules.tokens k = true) :
    c.identityKey k r E w = c.keyBy .objectToken r E w := by
  cases k with
  | node | type => cases hk
  | symbol =>
    have hr : (w.context c).rules.symbolIdentity = .objectToken := of_decide_eq_true hk
    change c.keyBy (w.context c).rules.symbolIdentity r E w = _
    rw [hr]
  | signature =>
    have hr : (w.context c).rules.signatureIdentity = .objectToken := of_decide_eq_true hk
    change c.keyBy (w.context c).rules.signatureIdentity r E w = _
    rw [hr]

theorem numbered_headway (i : Nat) (r : ObjectRef) (F : Multiset Reference) :
    Headway F w F ((w.numbered i r).settled c) := by
  have hnumbered : Headway F w F (w.numbered i r) :=
    .still ⟨rfl, rfl⟩ ⟨.refl _, rfl, .refl _⟩ rfl List.prefix_rfl (.of_same rfl rfl rfl)
  exact hnumbered.trans (.settle c)

theorem identityKey_headway {E : Engine} (hE : E.Sound) (k : ProxyKind) (r : ObjectRef)
    (F : Multiset Reference) : Headway F w F (c.identityKey k r E w).2 := by
  cases hk : (w.context c).rules.tokens k with
  | false => exact (identityKey_progress hE r hk F).toHeadway
  | true =>
    rw [identityKey_token r E hk]
    rcases keyBy_token (c := c) r E w with ⟨s, hs⟩ | ⟨v, i, _, _, hs⟩
    · rw [hs]
      exact Progress.refl.toHeadway
    · rw [hs]
      exact numbered_headway i r F

/-! ## Resolutions -/

/-- The token source of an open context is that of its own numbering. -/
theorem source_of_get {v : Value} {i : Nat} (ht : w.Tokened)
    (hv : (w.context c).custodian.get (w.context c).identityToken = .ok v)
    (hi : w.heap.tokenSource? v = some i) :
    c.index < w.contexts.size ∧ (w.context c).custodian.closed = false ∧ i = c.index := by
  obtain ⟨ho, hslot⟩ := Custodian.get_ok hv
  have hvalid : c.index < w.contexts.size := by
    by_contra hn
    have hd : w.context c = default := getD_of_size_le (Nat.le_of_not_lt hn)
    rw [hd] at hslot
    cases hslot
  obtain ⟨o, ho', hsource⟩ := ht.sources c hvalid ho
  rw [hslot] at ho'
  cases ho'
  have hown := hsource v rfl
  rw [hi] at hown
  exact ⟨hvalid, ho, Option.some.inj hown⟩

@[grind ←] theorem resolve_neutral (hc : .context c ∈ kept) (k : ProxyKind) (v : Value) :
    (c.resolve k v).Neutral kept := by
  intro E hE F w hF
  cases v with
  | object r =>
    rw [resolve_object, bind_eq]
    cases hk : (w.context c).rules.tokens k with
    | false =>
      have hkey := identityKey_progress hE r hk F
      rcases hr : c.identityKey k r E w with ⟨s | key, w₁⟩
      · rw [hr] at hkey
        exact hkey
      · rw [hr] at hkey
        exact hkey.trans (settle_progress (hF _ hc) (hkey.untokened c k hk) r E)
    | true =>
      rw [identityKey_token r E hk]
      rcases keyBy_token (c := c) r E w with ⟨s, hs⟩ | ⟨v, i, hv, hi, hs⟩
      · rw [hs]
        exact .refl
      · rw [hs]
        -- The numbering is ahead of the record in between, so the tokens are in order only after both.
        refine ⟨(numbered_headway i r F).trans (settle_headway (hF _ hc) r E), fun ht => ?_⟩
        obtain ⟨hvalid, hopen, rfl⟩ := source_of_get ht hv hi
        have hstill : (((w.numbered c.index r).settled c).context c).custodian.closed = false := by
          rw [← hopen]
          exact Holdings.closed_modifyContext c w.toHoldings (f := fun cx => { cx with pending := [] })
            (fun _ => rfl) c
        exact settle_tokened ht rfl hvalid hstill hk (tokenKey_toInt _ r w) E
  | _ =>
    rw [resolve_of_ne_object (by simp)]
    exact .refl

end ContextId

end ProxySession
