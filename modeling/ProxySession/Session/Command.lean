import ProxySession.Settings
import ProxySession.Session.Proxy

/-!
# Commands

A session is driven by steps over named variables. A step runs a command, in a context that it
names, and may store the result. The body of a host function is a list of such steps, so commands,
bodies and steps are defined together.
-/

namespace ProxySession

mutual

/-- A conversion of foreign values. -/
inductive Conv where
  | text
  | bool
  | int32
  | int64
  | number
  | object
  | nodeList
  | syntaxKind
  | scriptKind
  | signatureKind
  | proxy (k : ProxyKind)
  | sourceFile
  | view (v : TypeView)
  | list (of : Conv)
  | build (fields : ConvFields)

/-- The fields that an object is built from, in the order in which they are read. -/
inductive ConvFields where
  | nil
  | field (name : String) (nullable : Bool) (of : Conv) (rest : ConvFields)

end

/-- What a conversion does with an absent value: fail, answer with nothing, or convert it. -/
inductive ConvMode where
  | required | nullable | unchecked
deriving DecidableEq

/-- A foreign value, a fresh symbol, or a variable that holds a value. -/
inductive Argument where
  | value (v : Value)
  | symbol (description : Option Units)
  | variable (name : String)

/-- The queries on proxies, views, lists, scanners and contexts. -/
inductive Query where
  -- proxies in general
  | id | flags | declaration
  -- nodes
  | syntaxKind | isKind (name : String) | pos | stop | start | getText | parent
  | child (field : String) | childList (field : String) | boolField (field : String)
  | stringField (field : String) | optionalStringField (field : String)
  | numberField (field : String) | children
  /-- Breaks at the visited child of this number, or at none. -/
  | forEachChild (breakAt : Option Nat)
  | sourceFile | asSourceFile | sourceFileView
  -- source files
  | node | intoNode | fileName | text | scriptKind | isDeclarationFile | statements
  -- node lists
  | size | isEmpty | element (index : Nat) | iterate | toList | hasTrailingComma
  -- types and views
  | symbol | aliasSymbol | aliasTypeArguments | typeString
  | asView (v : TypeView) | objectType | unionType | typeReference
  | type | objectFlags | properties | callSignatures | constructSignatures | indexInfos
  | types | target | typeArguments | value
  -- symbols and signatures
  | name | declarations | valueDeclaration | typeOf | fullyQualifiedName
  | typeParameters | parameters | returnType | signatureString
  -- scanners
  | reset (position : UInt32) | scanNext | tokenStart | tokenEnd | tokenText
  | tokenAt (position : UInt32) | isClosed | close
  -- contexts
  | sameContext (other : String)

/-- The queries to a type checker. The arguments are names of variables. -/
inductive CheckerQuery where
  | typeAtLocation (node : String)
  | symbolAtLocation (node : String)
  | typeOfSymbol (symbol : String)
  | typeOfSymbolAtLocation (symbol node : String)
  | declaredTypeOfSymbol (symbol : String)
  | propertiesOfType (type : String)
  | propertyOfType (type name : String)
  | signaturesOfType (type : String) (kind : SignatureKind)
  | indexInfosOfType (type : String)
  | returnTypeOfSignature (signature : String)
  | typeArguments (reference : String)
  | baseTypes (objectType : String)
  | apparentType (type : String)
  | typeToString (type : String)
  | signatureToString (signature : String)
  | fullyQualifiedName (symbol : String)

/-- The queries to a table of syntax kinds. -/
inductive TableQuery where
  | size | isEmpty | kind (code : Int32) | code (name : String) | byName (name : String)

/-- A look-up in an identity map. Its creation makes further look-ups before it succeeds or
fails. -/
inductive Lookup where
  | mk (key : Int64) (before : List Lookup) (outcome : Except SessionError String)

inductive MapCommand where
  | kind | size | isEmpty | get (key : Int64) | intern (lookup : Lookup)

inductive CustodianCommand where
  | name | isClosed | liveHandles | trackedResources | close
  | retain (v : Argument) | retainObject (v : Argument) | retainHandle (v : Argument)
  | get (handle : String) | release (handle : String) | resolve (handle : String)
  | track (name : String) (failure : Option SessionError) (finished : Bool)

/-- A host value on its way to the foreign side. -/
inductive HostValue where
  | int32 (n : Int32) | uint32 (n : UInt32) | number (x : Binary64) | bool (b : Bool)
  | text (s : String)

mutual

/-- What a step does. -/
inductive Command where
  -- contexts
  | open (parse : Argument) (rules : IdentityRules)
  | close | isClosed | program | sourceFiles | sourceFile (name : String) | scanner (text : String)
  | identityRules | kinds | state
  | get (on : Argument) (name : String)
  | read (on : Argument) (name : String) (conv : Conv) (nullable : Bool)
  | invoke (on : Argument) (method : String) (arguments : List Argument)
  | call (on : Argument) (method : String) (arguments : List Argument) (conv : Conv)
    (nullable : Bool)
  | convert (value : Argument) (conv : Conv) (mode : ConvMode)
  | resolve (kind : ProxyKind) (value : Argument)
  | toForeign (value : HostValue)
  | hostFunction (body : HostBody)
  | checker (query : CheckerQuery)
  -- variables
  | drop (name : String) | clone (name : String) | same (a b : String)
  | distinct (names : List String)
  | query (on : String) (query : Query)
  -- tables, identity maps and custodians of their own
  | tableOfEntries (entries : List (String × Int32)) | tableOfObject (value : Argument)
  | table (on : String) (query : TableQuery)
  | newMap (kind : String) | identityMap (on : String) (command : MapCommand)
  | newCustodian (name : String) | custodian (on : String) (command : CustodianCommand)
  | finish (resource : String) | handleIndex (handle : String)
  -- values
  | errorFacts (e : SessionError)
  | flagNamed (family : FlagFamily) (name : String)
  | flagFacts (family : FlagFamily) (bits : UInt32) (other : Option UInt32)
  | scriptKind (code : Int32) | signatureKind (code : Int32)
  | runtimeLimits (limits : RuntimeLimits)
  | readRuntimeLimits (text : String) | readIdentityRules (text : String)

/-- The body of a host function, run in order at each call. -/
inductive HostBody where
  | done
  | step (s : Step) (rest : HostBody)
  | fail (e : SessionError)
  | answer (v : Argument)
  | answerArgument (i : Nat)

/-- A command, the name of the context it runs in, and the variable that takes the result. -/
inductive Step where
  | mk (command : Command) (context : String) (store : Option String)

end

end ProxySession
