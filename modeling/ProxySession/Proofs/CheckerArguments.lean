import ProxySession.Proofs.GoodHandles
import ProxySession.Proofs.Refusals
import ProxySession.Proofs.Resurfacing
import ProxySession.Session.Access.TypeQueries

/-!
# Arguments of a checker

A checker looks up the handles of the proxies that it is given in its own context, whatever contexts the
proxies belong to, before it calls its method. So a proxy of its own context stands for the object that
it wraps, or the query fails at once. The handle of any other proxy leads to whatever the checker's
context retains under the same number.
-/

namespace ProxySession

open Effect

variable {α : Type}

/-! ## Queries with proxies -/

/-- The queries of a checker, all of which take proxies. -/
inductive Checker.Method : Type → Type where
  | typeAtLocation (node : Node) : Method TypeProxy
  | symbolAtLocation (node : Node) : Method (Option SymbolProxy)
  | typeOfSymbol (symbol : SymbolProxy) : Method TypeProxy
  | typeOfSymbolAtLocation (symbol : SymbolProxy) (node : Node) : Method TypeProxy
  | declaredTypeOfSymbol (symbol : SymbolProxy) : Method TypeProxy
  | propertiesOfType (type : TypeProxy) : Method (List SymbolProxy)
  | propertyOfType (type : TypeProxy) (name : String) : Method (Option SymbolProxy)
  | signaturesOfType (type : TypeProxy) (kind : SignatureKind) : Method (List SignatureProxy)
  | indexInfosOfType (type : TypeProxy) : Method (List IndexInfo)
  | returnTypeOfSignature (signature : SignatureProxy) : Method TypeProxy
  | typeArguments (reference : TypeReference) : Method (List TypeProxy)
  | baseTypes (type : ObjectType) : Method (List TypeProxy)
  | apparentType (type : TypeProxy) : Method TypeProxy
  | typeToString (type : TypeProxy) : Method String
  | signatureToString (signature : SignatureProxy) : Method String
  | fullyQualifiedName (symbol : SymbolProxy) : Method String

namespace Checker.Method

def run (q : Checker) : Method α → Operation α
  | typeAtLocation node => q.typeAtLocation node
  | symbolAtLocation node => q.symbolAtLocation node
  | typeOfSymbol symbol => q.typeOfSymbol symbol
  | typeOfSymbolAtLocation symbol node => q.typeOfSymbolAtLocation symbol node
  | declaredTypeOfSymbol symbol => q.declaredTypeOfSymbol symbol
  | propertiesOfType type => q.propertiesOfType type
  | propertyOfType type name => q.propertyOfType type name
  | signaturesOfType type kind => q.signaturesOfType type kind
  | indexInfosOfType type => q.indexInfosOfType type
  | returnTypeOfSignature signature => q.returnTypeOfSignature signature
  | typeArguments reference => q.typeArguments reference
  | baseTypes type => q.baseTypes type
  | apparentType type => q.apparentType type
  | typeToString type => q.typeToString type
  | signatureToString signature => q.signatureToString signature
  | fullyQualifiedName symbol => q.fullyQualifiedName symbol

/-- The proxies that the query takes, in the order in which their handles are looked up. -/
def proxies : Method α → List (Sigma Proxy)
  | typeAtLocation node | symbolAtLocation node => [⟨.node, node⟩]
  | typeOfSymbol symbol | declaredTypeOfSymbol symbol | fullyQualifiedName symbol =>
    [⟨.symbol, symbol⟩]
  | typeOfSymbolAtLocation symbol node => [⟨.symbol, symbol⟩, ⟨.node, node⟩]
  | propertiesOfType type | propertyOfType type _ | signaturesOfType type _ | indexInfosOfType type
  | apparentType type | typeToString type => [⟨.type, type⟩]
  | typeArguments reference => [⟨.type, reference.type⟩]
  | baseTypes type => [⟨.type, type.type⟩]
  | returnTypeOfSignature signature | signatureToString signature => [⟨.signature, signature⟩]

def handles (m : Method α) : List HandleId := m.proxies.map fun p => p.2.handle

/-- The foreign call that the query makes on the checker object of a context, with values in the place
of the proxies. -/
def call (c : ContextId) (r : ObjectRef) (vs : List Value) : Method α → ForeignCall α
  | typeAtLocation _ => .call r "getTypeAtLocation" vs (c.toProxy .type)
  | symbolAtLocation _ => .callNullable r "getSymbolAtLocation" vs (c.toProxy .symbol)
  | typeOfSymbol _ => .call r "getTypeOfSymbol" vs (c.toProxy .type)
  | typeOfSymbolAtLocation _ _ => .call r "getTypeOfSymbolAtLocation" vs (c.toProxy .type)
  | declaredTypeOfSymbol _ => .call r "getDeclaredTypeOfSymbol" vs (c.toProxy .type)
  | propertiesOfType _ => .call r "getPropertiesOfType" vs (c.toProxies .symbol)
  | propertyOfType _ name =>
    .callNullable r "getPropertyOfType" (vs ++ [.ofString name]) (c.toProxy .symbol)
  | signaturesOfType _ kind =>
    .call r "getSignaturesOfType" (vs ++ [.int kind.code]) (c.toProxies .signature)
  | indexInfosOfType _ =>
    .call r "getIndexInfosOfType" vs (Conversion.plainList c (Checker.toIndexInfo c))
  | returnTypeOfSignature _ => .call r "getReturnTypeOfSignature" vs (c.toProxy .type)
  | typeArguments _ => .call r "getTypeArguments" vs (c.toProxies .type)
  | baseTypes _ => .call r "getBaseTypes" vs (c.toProxies .type)
  | apparentType _ => .call r "getApparentType" vs (c.toProxy .type)
  | typeToString _ => .call r "typeToString" vs (Conversion.toText c)
  | signatureToString _ => .call r "signatureToString" vs (Conversion.toText c)
  | fullyQualifiedName _ => .call r "getFullyQualifiedName" vs (Conversion.toText c)

/-- Finds the checker object of a context and makes the call on it. -/
def ask (m : Method α) (c : ContextId) (vs : List Value) : Operation α :=
  Effect.located "checker" do
    let r ← c.object ((← world).context c).checker
    (m.call c r vs).run c

end Checker.Method

/-! ## Looking the handles up -/

section

variable {ε β γ : Type} {f : α → Effect ε β} {k : List β → Effect ε γ}

theorem Effect.collect_one (a : α) : collect f [a] >>= k = f a >>= fun b => k [b] := by
  rw [collect, bind_assoc]
  rfl

theorem Effect.collect_two (a a' : α) :
    collect f [a, a'] >>= k = f a >>= fun b => f a' >>= fun b' => k [b, b'] := by
  rw [collect, bind_assoc]
  congr 1
  funext b
  rw [bind_assoc]
  exact collect_one a'

end

theorem ContextId.collect_value (c : ContextId) (E : Engine) (w : World) :
    (ids : List HandleId) → (collect c.value ids : Operation (List Value)) E w =
      match ids.mapM (w.context c).custodian.get with
      | .ok vs => (.ok vs, w)
      | .error e => (.error (.failed (.lifetime e)), w)
  | [] => rfl
  | id :: rest => by
    rw [collect, List.mapM_cons]
    rcases hget : (w.context c).custodian.get id with e | v
    · have hvalue : c.value id E w = (.error (.failed (.lifetime e)), w) := by
        rw [value, world_bind, hget]
        rfl
      rw [bind_of_error hvalue]
      rfl
    · have hvalue : c.value id E w = (.ok v, w) := by
        rw [value, world_bind, hget]
        rfl
      rw [bind_of_ok hvalue, bind_eq, collect_value c E w rest]
      rcases rest.mapM (w.context c).custodian.get with e | vs <;> rfl

namespace Checker.Method

/-- A query looks up the handles of its proxies in the context of the checker and then makes its call. -/
theorem run_eq (m : Method α) (c : ContextId) :
    m.run c.checker = collect c.value m.handles >>= m.ask c := by
  cases m with
  | typeOfSymbolAtLocation symbol node =>
    change _ = collect c.value [_, _] >>= _
    rw [collect_two]
    rfl
  | _ =>
    change _ = collect c.value [_] >>= _
    rw [collect_one]
    rfl

theorem run_apply (m : Method α) (c : ContextId) (E : Engine) (w : World) :
    m.run c.checker E w = match m.handles.mapM (w.context c).custodian.get with
      | .ok vs => m.ask c vs E w
      | .error e => (.error (.failed (.lifetime e)), w) := by
  rw [run_eq, bind_eq, c.collect_value E w]
  rcases m.handles.mapM (w.context c).custodian.get with e | vs <;> rfl

end Checker.Method

/-! ## What the method receives -/

namespace Holdings

/-- The object that a proxy wraps: the one that was resolved first under its key in its context. -/
def wrapped (h : Holdings) (p : Sigma Proxy) : Option ObjectRef :=
  (firstResolution p.1 p.2.key (h.resolutionsOf p.2.context)).map (·.object)

def HandedOut (h : Holdings) (p : Sigma Proxy) : Prop := ∃ ρ ∈ h.resolutions, ⟨ρ.kind, ρ.proxy⟩ = p

instance (h : Holdings) (p : Sigma Proxy) : Decidable (h.HandedOut p) :=
  inferInstanceAs (Decidable (∃ ρ ∈ h.resolutions, _ = _))

/-- Under the handle of a proxy a context finds nothing, or else the object that the proxy wraps, whose
own context is open. -/
def Agrees (h : Holdings) (c : ContextId) (p : Sigma Proxy) : Prop :=
  (∃ e, (h.context c).custodian.get p.2.handle = .error e) ∨
    (h.context p.2.context).custodian.closed = false ∧
      ∃ r, h.wrapped p = some r ∧ (h.context c).custodian.get p.2.handle = .ok (.object r)

variable {F : Multiset Reference} {h : Holdings}

/-- A context agrees with the proxies that it handed out, also when it is closed. -/
theorem agrees_own (hs : Sound F h) {p : Sigma Proxy} (hp : h.HandedOut p)
    (hb : (h.context p.2.context).custodian.slots.size ≤ 2 ^ 32) : h.Agrees p.2.context p := by
  obtain ⟨ρ, hρ, rfl⟩ := hp
  rcases hc : (h.context ρ.proxy.context).custodian.closed with _ | _
  · obtain ⟨σ, hσ, hget⟩ := get_proxy hs hρ hc hb
    have hm : ρ ∈ h.resolutionsOf ρ.proxy.context :=
      List.mem_filter.2 ⟨Array.mem_toList_iff.2 hρ, by simp⟩
    have hkey : ρ.proxy.key = ρ.key := ((hs.alive _ (hs.resolutions ρ hρ) hc).keeps.proxies ρ hm).1
    -- Every proxy of a key has the handle of the first resolution under it.
    refine .inr ⟨hc, σ.object, ?_, hget⟩
    rw [wrapped, hkey, hσ]
    rfl
  · exact .inl ⟨_, if_pos hc⟩

/-- Where a context agrees with some proxies, it does not find them all, or it finds what they wrap. -/
theorem mapM_agrees {c : ContextId} : (ps : List (Sigma Proxy)) → (∀ p ∈ ps, h.Agrees c p) →
    (∃ e, (ps.map fun p => p.2.handle).mapM (h.context c).custodian.get = .error e) ∨
      (∀ p ∈ ps, (h.context p.2.context).custodian.closed = false) ∧
        ∃ rs : List ObjectRef, ps.map h.wrapped = rs.map some ∧
          (ps.map fun p => p.2.handle).mapM (h.context c).custodian.get = .ok (rs.map .object)
  | [], _ => .inr ⟨fun _ hp => absurd hp List.not_mem_nil, [], rfl, rfl⟩
  | p :: rest, hall => by
    rw [List.map_cons, List.mapM_cons]
    rcases hall p List.mem_cons_self with ⟨e, he⟩ | ⟨ho, r, hr, hget⟩
    · exact .inl ⟨e, by rw [he]; rfl⟩
    · rw [hget]
      rcases mapM_agrees rest fun q hq => hall q (List.mem_cons_of_mem p hq) with
        ⟨e, he⟩ | ⟨hopen, rs, hrs, hget'⟩
      · exact .inl ⟨e, by rw [he]; rfl⟩
      · refine .inr ⟨List.forall_mem_cons.2 ⟨ho, hopen⟩, r :: rs, ?_, ?_⟩
        · rw [List.map_cons, List.map_cons, hr, hrs]
        · rw [hget']
          rfl

end Holdings

namespace Session

variable {heap : Heap} {w : World}

/-- Whatever a session can hold, a query to the checker of a context fails at once if that context misses
the handle of one of the proxies, and otherwise its method receives what the context retains under their
handles. So if each proxy is the context's own, or the context agrees with it by chance, the query fails
before any foreign code runs or its method receives the objects that the proxies wrap, and then the
contexts of the proxies are open. -/
theorem checker_arguments (hw : Arrived heap w) (m : Checker.Method α) (c : ContextId) :
    (∀ E, m.run c.checker E w = match m.handles.mapM (w.context c).custodian.get with
      | .ok vs => m.ask c vs E w
      | .error e => (.error (.failed (.lifetime e)), w)) ∧
    ((w.context c).custodian.slots.size < 2 ^ 32 →
      (∀ p ∈ m.proxies, w.HandedOut p ∧ p.2.context = c ∨ w.Agrees c p) →
        (∃ e, ∀ E, m.run c.checker E w = (.error (.failed (.lifetime e)), w)) ∨
        (∀ p ∈ m.proxies, (w.context p.2.context).custodian.closed = false) ∧
          ∃ rs : List ObjectRef, m.proxies.map w.wrapped = rs.map some ∧
            ∀ E, m.run c.checker E w = m.ask c (rs.map .object) E w) := by
  refine ⟨fun E => m.run_apply c E w, fun hb hproxies => ?_⟩
  obtain ⟨F, hrun⟩ := hw
  have hs := (hrun.moves.sound_later Holdings.empty_sound).1
  have hagrees : ∀ p ∈ m.proxies, w.Agrees c p := fun p hp => by
    rcases hproxies p hp with ⟨hout, rfl⟩ | hagrees
    · exact Holdings.agrees_own hs hout (Nat.le_of_lt hb)
    · exact hagrees
  rcases Holdings.mapM_agrees m.proxies hagrees with ⟨e, he⟩ | ⟨hopen, rs, hrs, hget⟩
  · refine .inl ⟨e, fun E => ?_⟩
    rw [m.run_apply c E w, Checker.Method.handles, he]
  · refine .inr ⟨hopen, rs, hrs, fun E => ?_⟩
    rw [m.run_apply c E w, Checker.Method.handles, hget]

/-! ## A sample session with two contexts -/

/-- A heap with a parse result, whose checker describes a type by its title, and two types. -/
def twinHeap : Heap :=
  let reference (name : String) (i : Nat) : PropertyDescription :=
    ⟨.ofString name, .value (.object ⟨i⟩), true⟩
  let holding (name : String) (v : Value) : PropertyDescription := ⟨.ofString name, .value v, true⟩
  .ofDescriptions
    [⟨"program", .plain, []⟩, ⟨"checker", .plain, [reference "typeToString" 6]⟩,
      ⟨"createScanner", .function (.value .undefined), []⟩,
      ⟨"getNodeId", .function (.value (.int 7)), []⟩, ⟨"syntaxKinds", .plain, []⟩,
      ⟨"parse", .plain, [reference "program" 0, reference "checker" 1,
        reference "createScanner" 2, reference "getNodeId" 3, reference "syntaxKinds" 4]⟩,
      ⟨"describe", .function (.get (.argument 0) (.value (.ofString "title"))), []⟩,
      ⟨"first", .plain, [holding "id" (.int 1), holding "title" (.ofString "first")]⟩,
      ⟨"second", .plain, [holding "id" (.int 2), holding "title" (.ofString "second")]⟩] #[]

/-- Opens two contexts, resolves the first type in one and the second type in the other, and closes the
one with the first type. -/
def twinSteps : List Step :=
  [.mk (.open (.value (.object ⟨5⟩)) {}) "a" (some "a"),
    .mk (.open (.value (.object ⟨5⟩)) {}) "b" (some "b"),
    .mk (.resolve .type (.value (.object ⟨7⟩))) "a" (some "p"),
    .mk (.resolve .type (.value (.object ⟨8⟩))) "b" (some "q"),
    .mk .close "a" none]

def twinWorld : World := last 4 twinHeap [] twinSteps

/-- The proxy of the first type, in the context that is closed. -/
def firstType : TypeProxy := ⟨⟨0⟩, 1, ⟨5⟩⟩

/-- The proxy of the second type, in the context that is open. -/
def secondType : TypeProxy := ⟨⟨1⟩, 2, ⟨5⟩⟩

def describing (type : TypeProxy) : Operation String :=
  (Checker.Method.typeToString type).run (ContextId.checker ⟨1⟩)

theorem checker_arguments_sample :
    (describing secondType (Engine.ofFuel 4 stackSize) twinWorld).1.toOption = some "second" ∧
    ∃ r : ObjectRef, twinWorld.wrapped ⟨.type, secondType⟩ = some r ∧
      describing secondType (Engine.ofFuel 4 stackSize) twinWorld =
        (Checker.Method.typeToString secondType).ask ⟨1⟩ [.object r] (Engine.ofFuel 4 stackSize)
          twinWorld := by
  have hdescribed :
      (describing secondType (Engine.ofFuel 4 stackSize) twinWorld).1.toOption = some "second" := by
    decide +kernel
  have hfacts : (twinWorld.context ⟨1⟩).custodian.slots.size < 2 ^ 32 ∧
      twinWorld.HandedOut ⟨.type, secondType⟩ := by decide +kernel
  have harrived : Arrived twinHeap twinWorld := last_arrived
  have hproxies : ∀ p ∈ (Checker.Method.typeToString secondType).proxies,
      twinWorld.HandedOut p ∧ p.2.context = ⟨1⟩ ∨ twinWorld.Agrees ⟨1⟩ p := fun p hp => by
    obtain rfl := List.mem_singleton.1 hp
    exact .inl ⟨hfacts.2, rfl⟩
  rcases (checker_arguments harrived (.typeToString secondType) ⟨1⟩).2 hfacts.1 hproxies with
    ⟨e, hrun⟩ | ⟨_, rs, hrs, hrun⟩
  · have hfailed := hrun (Engine.ofFuel 4 stackSize)
    rw [describing, hfailed] at hdescribed
    cases hdescribed
  · obtain ⟨r, rfl⟩ : ∃ r, rs = [r] := by
      have hlength := congrArg List.length hrs
      rw [List.length_map, List.length_map] at hlength
      exact List.length_eq_one_iff.1 hlength.symm
    exact ⟨hdescribed, r, List.singleton_inj.1 hrs, hrun _⟩

/-- The handle of a proxy of a closed context leads to another object in an open one: the method gets the
second type in place of the first. -/
theorem stray_proxy_described :
    twinWorld.HandedOut ⟨.type, firstType⟩ ∧ twinWorld.wrapped ⟨.type, firstType⟩ = some ⟨7⟩ ∧
    (twinWorld.context firstType.context).custodian.closed = true ∧
    ((twinWorld.context ⟨1⟩).custodian.get firstType.handle).toOption = some (.object ⟨8⟩) ∧
    (describing firstType (Engine.ofFuel 4 stackSize) twinWorld).1.toOption = some "second" := by
  decide +kernel

end Session

end ProxySession
