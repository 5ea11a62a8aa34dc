import ProxySession.Session.Resolve

/-!
# Reading through a handle

What a proxy and a node list share: a context that they do not keep alive, a handle in it, and the
name of their kind. Every access enters the context, looks the handle up and works on the object
behind it; its failure is located at the kind and the name that was read.
-/

namespace ProxySession

open Effect

/-- A handle in a context, under the name of a kind. -/
structure ProxyCore where
  context : ContextId
  handle : HandleId
  kind : String

namespace ProxyCore

variable {α : Type}

/-- The site of an access. -/
def site (g : ProxyCore) (name : String) : String := g.kind ++ "." ++ name

/-- Works on the object behind the handle, in its context. -/
def access (g : ProxyCore) (name : String) (work : ObjectRef → Operation α) : Operation α :=
  Effect.located (g.site name) (g.context.entering do work (← g.context.object g.handle))

/-- Reads a property and converts it; absence is an error. -/
def read (g : ProxyCore) (name : String) (convert : Conversion α) : Operation α :=
  g.access name fun r => do convert.required (← g.context.property r name)

/-- Reads a property and converts it if it is there. -/
def readNullable (g : ProxyCore) (name : String) (convert : Conversion α) : Operation (Option α) :=
  g.access name fun r => do convert.nullable (← g.context.property r name)

/-- Whether the object has a function under a name. -/
def hasMethod (g : ProxyCore) (name : String) : Operation Bool :=
  g.access name fun r => do
    let v ← g.context.property r name
    pure ((← world).heap.isFunction v)

/-- Calls a method without arguments and converts the result; absence is an error. -/
def call (g : ProxyCore) (method : String) (convert : Conversion α) : Operation α :=
  g.access method fun r => do convert.required (← g.context.callMethod r method [])

end ProxyCore

namespace Proxy

variable {k : ProxyKind}

def core (p : Proxy k) : ProxyCore := ⟨p.context, p.handle, k.name⟩

/-- The object of the proxy as an argument for foreign calls of a context. The handle is looked up
in that context. -/
def foreign (p : Proxy k) (c : ContextId) : Operation Value := c.value p.handle

end Proxy

namespace ContextId

/-- The conversion to a proxy of a kind. -/
def toProxy (c : ContextId) (k : ProxyKind) : Conversion (Proxy k) := c.resolve k

/-- The conversion to a list of proxies of a kind. -/
def toProxies (c : ContextId) (k : ProxyKind) : Conversion (List (Proxy k)) :=
  Conversion.plainList c (c.toProxy k)

end ContextId

end ProxySession
