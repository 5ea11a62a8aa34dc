import ProxySession.Session.Conversion

/-!
# Resolution of foreign objects to proxies

A foreign object resolves to the one proxy of its kind under its identity key. The key is computed
first, by foreign code or from a token; the object is retained only if the key has no entry then.
The creation of an entry runs while the map can be used by others, and an entry that is present
by its end stays.
-/

namespace ProxySession

open Effect

/-- An identity map somewhere in the world. -/
structure MapLens (α : Type) where
  load : World → IdentityMap α
  store : IdentityMap α → World → World
  keyText : Int64 → String

namespace MapLens

variable {α : Type}

/-- The identity map of a kind of proxies in a context. -/
def ofContext (c : ContextId) (k : ProxyKind) : MapLens HandleId where
  load w := (w.context c).identities k
  store map w := w.updateContext c fun cx => cx.setIdentities k map
  keyText := k.keyText

/-- An identity map of its own. -/
def ofIndex (i : Nat) : MapLens String where
  load w := w.mapAt i
  store map w := { w with maps := w.maps.setIfInBounds i map }
  keyText key := toString key.toInt

/-- Records a look-up. -/
def logLookup (lens : MapLens α) (message : String) (key : Int64) (w : World) : World :=
  w.log .trace message [("kind", (lens.load w).kind), ("key", lens.keyText key)]

/-- The entry under a key, which `create` makes if there is none when the call begins. -/
def intern (lens : MapLens α) (key : Int64) (create : Operation α) : Operation α := do
  match (lens.load (← world)).get? key with
  | some hit =>
    change (lens.logLookup "proxy cache hit" key)
    pure hit
  | none =>
    let made ← create
    change (lens.logLookup "proxy cache miss" key)
    act fun w =>
      let (entry, map) := (lens.load w).offer key made
      (entry, lens.store map w)

end MapLens

namespace ContextId

/-! ## Identity keys -/

/-- The key that the compiler assigns to a node. -/
def nodeKey (c : ContextId) (r : ObjectRef) : Operation Int64 := do
  let f ← c.function ((← world).context c).nodeId
  let v ← (c.callFunction f [.object r]).located "getNodeId"
  (Conversion.required .toInt64 v).located "getNodeId"

/-- The numbering behind the token source under a handle of the context. -/
def tokenSource (c : ContextId) (id : HandleId) : Operation Nat := do
  let v ← c.value id
  match (← world).heap.tokenSource? v with
  | some i => pure i
  | none => Operation.shapeMismatch "function" v

/-- The key of an object by an identity rule. -/
def keyBy (c : ContextId) (source : IdentityRule) (r : ObjectRef) : Operation Int64 := do
  match source with
  | .objectToken =>
    let i ← c.tokenSource ((← world).context c).identityToken
    let v ← (c.calling (Eval.identityToken i r)).located "identity token"
    (Conversion.required .toInt64 v).located "identity token"
  | .property name => c.read r name .toInt64

/-- The identity key of an object as a proxy of a kind. -/
def identityKey (c : ContextId) (k : ProxyKind) (r : ObjectRef) : Operation Int64 := do
  let rules := ((← world).context c).rules
  match k with
  | .node => c.nodeKey r
  | .type => c.read r "id" .toInt64
  | .symbol => c.keyBy rules.symbolIdentity r
  | .signature => c.keyBy rules.signatureIdentity r

/-- The one proxy of a kind for a foreign value. -/
def resolve (c : ContextId) (k : ProxyKind) (v : Value) : Operation (Proxy k) := do
  let r ← Operation.object k.name v
  let key ← c.identityKey k r
  let handle ← (MapLens.ofContext c k).intern key (c.retain v)
  let proxy : Proxy k := ⟨c, key, handle⟩
  change (World.recordResolution ⟨k, r, key, proxy⟩)
  pure proxy

end ContextId

end ProxySession
