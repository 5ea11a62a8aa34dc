import ProxySession.IdentityMap
import ProxySession.Session.Command
import ProxySession.Session.Shown

/-!
# The world of a session

A `World` holds the foreign heap, the contexts, what was made in them, the named variables, and the
record of what happened. Contexts, node lists and scanner sessions count the references that keep
them alive. Resolutions, failures of host functions, calls of visitors and past holdings are on record
only: nothing that runs reads them.

Two things are left out. What functions of the host have captured is in no world, as the functions here
capture nothing; a reference that one owned would be given up when foreign code frees the function, at
whatever time. And nothing says whether a custodian is borrowed. Only what goes with a value that the
custodian gives up can meet a borrow: a list, which `World.dropListOwning` accounts for, or a scanner session
that its own scanner object keeps, which would end the program and is left out.
-/

namespace ProxySession

/-- A failure of a host function on its way through foreign code: the error object that was thrown
for it carries its tag. -/
structure HostFailure where
  context : ContextId
  tag : Nat
  error : SessionError
  exception : ObjectRef

/-- A program context: the session's handles, its four identity maps, and the errors of its host
functions that are on their way through foreign code. -/
structure Context where
  rules : IdentityRules
  custodian : Custodian ScannerId
  program : HandleId
  checker : HandleId
  scannerFactory : HandleId
  nodeId : HandleId
  identityToken : HandleId
  forEachChild : Option HandleId
  kinds : KindTable
  nodes : IdentityMap HandleId
  types : IdentityMap HandleId
  symbols : IdentityMap HandleId
  signatures : IdentityMap HandleId
  /-- The failures of host functions in the current foreign call, in the order in which they were
  thrown. -/
  pending : List HostFailure
  /-- The last tag that was given. -/
  lastTag : Nat
  /-- The strong references: variables, scanner sessions and running operations. -/
  references : Nat
deriving Inhabited

namespace Context

def identities (c : Context) : ProxyKind → IdentityMap HandleId
  | .node => c.nodes
  | .type => c.types
  | .symbol => c.symbols
  | .signature => c.signatures

def setIdentities (c : Context) (k : ProxyKind) (map : IdentityMap HandleId) : Context :=
  match k with
  | .node => { c with nodes := map }
  | .type => { c with types := map }
  | .symbol => { c with symbols := map }
  | .signature => { c with signatures := map }

def debug (c : Context) : String :=
  debugRecord "ProgramContext" [("holder", c.custodian.debug),
    ("caches", debugRecord "CacheSizes" [("nodes", toString c.nodes.size),
      ("types", toString c.types.size), ("symbols", toString c.symbols.size),
      ("signatures", toString c.signatures.size)])]

end Context

/-- One conversion of an array to a node list, shared by its clones. -/
structure NodeList where
  context : ContextId
  handle : HandleId
  length : Nat
  clones : Nat
  /-- What was converted. It is only on record: a list reaches its array through the handle. -/
  origin : Value
  /-- Whether the handle stayed with the context when the last clone went. It is only on record, too. -/
  left : Bool := false
deriving Inhabited

/-- A scanner session over one text, shared by its clones. -/
structure ScannerSession where
  context : ContextId
  custodian : Custodian Empty
  handle : HandleId
  text : String
  clones : Nat
deriving Inhabited

/-- A resource that a custodian of its own tracks. -/
structure TrackedResource where
  name : String
  failure : Option SessionError
  finished : Bool

structure ResourceId where
  index : Nat
deriving DecidableEq

/-- What a host function does when foreign code calls it. -/
inductive HostBehaviour where
  | run (name : String) (body : HostBody)
  /-- Keeps the first argument of each call in a collection. -/
  | collect (collection : Nat)

/-- A function of the host; it refers to its context without keeping it alive. -/
structure HostFunction where
  context : ContextId
  behaviour : HostBehaviour

/-- A result that a variable can hold. -/
inductive Item where
  | report (r : Shown)
  | foreign (v : Value)
  | proxy {k : ProxyKind} (p : Proxy k)
  | sourceFile (f : SourceFile)
  | view {v : TypeView} (t : View v)
  | indexInfo (i : IndexInfo)
  | list (items : List Item)
  | nodeList (l : ListId)
  | context (c : ContextId)
  | scanner (s : ScannerId)
  | table (t : KindTable)
  | custodian (index : Nat)
  | handle (id : HandleId)
  | retained (r : Retained)
  | identityMap (index : Nat)
deriving Inhabited

/-- What crossed the border between host and foreign code. -/
inductive Crossing where
  | call (function : Shown) (receiver : Shown) (arguments : List Shown)
  | get (object : Shown) (key : String)
  | host (name : String) (arguments : List Shown)
  /-- A step of a host function succeeded. -/
  | step (result : Shown)
  | close (resource : String)
  | create (key : Int64)

inductive LogLevel where
  | trace | debug | warn | span

/-- An event of the log. -/
structure LogEvent where
  level : LogLevel
  message : String
  fields : List (String × String)

/-- A resolution that succeeded: the object, the identity key that was computed for it, and the
proxy that was handed out. -/
structure Resolution where
  kind : ProxyKind
  object : ObjectRef
  key : Int64
  proxy : Proxy kind

/-- What the host side of a session holds: the contexts, what was made in them, and the named
variables. -/
structure Holdings where
  contexts : Array Context
  lists : Array NodeList
  scanners : Array ScannerSession
  bindings : List (String × Item)
  /-- All resolutions that succeeded, in the order in which they ended. -/
  resolutions : Array Resolution
deriving Inhabited

namespace Holdings

def empty : Holdings := ⟨#[], #[], #[], [], #[]⟩

def context (h : Holdings) (c : ContextId) : Context := h.contexts.getD c.index default

def list (h : Holdings) (l : ListId) : NodeList := h.lists.getD l.index default

def scanner (h : Holdings) (s : ScannerId) : ScannerSession := h.scanners.getD s.index default

end Holdings

/-- The state of a session. -/
structure World extends Holdings where
  heap : Heap
  /-- The numberings behind the token sources, which foreign code does not reach. -/
  numberings : Array Numbering
  hostFunctions : Array HostFunction
  collections : Array (List Value)
  custodians : Array (Custodian ResourceId)
  resources : Array TrackedResource
  maps : Array (IdentityMap String)
  /-- All failures of host functions that were ever thrown. -/
  hostFailures : Array HostFailure
  /-- All calls of functions that keep what they are given: the number of the collection, and the arguments. -/
  visits : Array (Nat × List Value)
  crossings : Array Crossing
  events : Array LogEvent
  /-- The holdings at each moment at which a step or a function began or ended, the latest first. -/
  history : List Holdings
deriving Inhabited

namespace World

def ofHeap (heap : Heap) : World :=
  { Holdings.empty with
    heap, numberings := #[], hostFunctions := #[], collections := #[], custodians := #[], resources := #[], maps := #[]
    hostFailures := #[], visits := #[], crossings := #[], events := #[], history := [] }

/-- The first argument of a visitor's call goes into the visitor's collection. -/
def visit (collection : Nat) (arguments : List Value) (w : World) : World :=
  let w := { w with visits := w.visits.push (collection, arguments) }
  match arguments with
  | [] => w
  | v :: _ => { w with collections := w.collections.modify collection fun vs => vs ++ [v] }

/-! ## Parts of the world -/

def updateContext (w : World) (c : ContextId) (f : Context → Context) : World :=
  { w with contexts := w.contexts.modify c.index f }

def updateList (w : World) (l : ListId) (f : NodeList → NodeList) : World :=
  { w with lists := w.lists.modify l.index f }

def updateScanner (w : World) (s : ScannerId) (f : ScannerSession → ScannerSession) : World :=
  { w with scanners := w.scanners.modify s.index f }

def custodian (w : World) (i : Nat) : Custodian ResourceId := w.custodians.getD i default

def setCustodian (w : World) (i : Nat) (custodian : Custodian ResourceId) : World :=
  { w with custodians := w.custodians.setIfInBounds i custodian }

def mapAt (w : World) (i : Nat) : IdentityMap String := w.maps.getD i default

/-! ## Records -/

def cross (w : World) (c : Crossing) : World := { w with crossings := w.crossings.push c }

def log (w : World) (level : LogLevel) (message : String) (fields : List (String × String)) :
    World :=
  { w with events := w.events.push ⟨level, message, fields⟩ }

/-- Records what is held at the moment. -/
def mark (w : World) : World := { w with history := w.toHoldings :: w.history }

/-- Records a resolution. -/
def recordResolution (resolution : Resolution) (w : World) : World :=
  { w with resolutions := w.resolutions.push resolution }

/-- Records the failure of a host function, which waits in its context from now on. -/
def recordHostFailure (failure : HostFailure) (w : World) : World :=
  { w with hostFailures := w.hostFailures.push failure }.updateContext failure.context fun cx =>
    { cx with lastTag := failure.tag, pending := cx.pending ++ [failure] }

/-! ## Shown values and results -/

/-- The label of an object, or a question mark. -/
def labelOf (w : World) (r : ObjectRef) : String := (w.heap.object r).label.getD "?"

def showText (t : Units) : Shown :=
  match t.decode with
  | .ok s => .text s
  | .error _ => .brokenText

/-- A foreign value as it is shown. -/
def showValue (w : World) : Value → Shown
  | .undefined => .undefined
  | .null => .nothing
  | .bool b => .bool b
  | .int n => .int n.toInt
  | .float x => .number x
  | .bigint n => .bigint n
  | .text t => showText t
  | .symbol _ => .symbol
  | .object r => .object (w.labelOf r) (w.heap.object r).typeName

def debugList (l : NodeList) : String := debugRecord "NodeList" [("len", toString l.length)]

def debugScanner (s : ScannerSession) : String :=
  debugRecord "ScannerContext" [("len", toString s.text.utf8ByteSize),
    ("closed", toString s.custodian.closed)]

def showRetained (w : World) : Retained → Shown
  | .primitive v => .record [("primitive", w.showValue v)]
  | .handle id => .record [("handle", .debug id.debug)]

mutual

/-- A result as it is shown. -/
def showItem (w : World) : Item → Shown
  | .report r => r
  | .foreign v => w.showValue v
  | .proxy p => .debug p.debug
  | .sourceFile f => .debug f.debug
  | .view t => .debug t.debug
  | .indexInfo i =>
    .record [("keyType", .debug i.keyType.debug), ("valueType", .debug i.valueType.debug),
      ("isReadonly", .bool i.isReadonly),
      ("declaration", Shown.option (fun n => .debug n.debug) i.declaration)]
  | .list items => .list (w.showItems items)
  | .nodeList l => .debug (debugList (w.list l))
  | .context c => .debug (w.context c).debug
  | .scanner s => .debug (debugScanner (w.scanner s))
  | .table t => .record [("table", .int t.size)]
  | .custodian i => .debug (w.custodian i).debug
  | .handle id => .debug id.debug
  | .retained r => w.showRetained r
  | .identityMap i => .debug (w.mapAt i).debug

def showItems (w : World) : List Item → List Shown
  | [] => []
  | item :: rest => w.showItem item :: w.showItems rest

end

/-! ## Variables -/

/-- A part of a result by its name: an element by its index, a field of an index signature. -/
def partOf (part : String) : Item → Option Item
  | .list items => (Literal.index? part.toList).bind fun i => items[i]?
  | .indexInfo i =>
    if part = "keyType" then some (.proxy i.keyType)
    else if part = "valueType" then some (.proxy i.valueType)
    else if part = "declaration" then
      some (match i.declaration with
        | some n => .proxy n
        | none => .report .nothing)
    else none
  | _ => none

/-- The result under a name given by its pieces, the last one first: a variable of the whole name,
or else the part that the last piece names. -/
def lookupPieces (w : World) : List (List Char) → Option Item
  | [] => none
  | piece :: rest =>
    match w.bindings.lookup (String.ofList (Text.joinPieces '.' (piece :: rest).reverse)) with
    | some item => some item
    | none => (w.lookupPieces rest).bind (partOf (String.ofList piece))

/-- The result that a name stands for: a variable, or a part of a result, named after a point. -/
def lookup (w : World) (name : String) : Option Item :=
  w.lookupPieces (Text.pieces '.' name.toList).reverse

/-- The kept handles, the sizes of the identity maps, and whether the context is closed. -/
def contextState (w : World) (c : ContextId) : Shown :=
  let cx := w.context c
  .list [.int cx.custodian.liveHandles, .int cx.nodes.size, .int cx.types.size,
    .int cx.symbols.size, .int cx.signatures.size, .bool cx.custodian.closed]

end World

end ProxySession
