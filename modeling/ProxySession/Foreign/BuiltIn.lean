/-!
# Functions of the engine

The objects of the engine belong to families. A family has an ancestor, from which its objects
inherit, and a maker, a function that makes them. The functions behind the properties of the
ancestors are `BuiltIn`s; most of them work on their receiver.
-/

namespace ProxySession

/-- A family of objects of the engine. The last five are the wrappers of primitives. -/
inductive Family where
  | object | function | error | typeError | rangeError | syntaxError
  | text | number | boolean | symbol | bigInteger
deriving DecidableEq, Inhabited

namespace Family

def all : List Family :=
  [object, function, error, typeError, rangeError, syntaxError, text, number, boolean, symbol,
    bigInteger]

/-- The place of the family in the list of all. -/
def index (f : Family) : Nat := all.idxOf f

/-- The name of the maker. -/
def name : Family → String
  | object => "Object"
  | function => "Function"
  | error => "Error"
  | typeError => "TypeError"
  | rangeError => "RangeError"
  | syntaxError => "SyntaxError"
  | text => "String"
  | number => "Number"
  | boolean => "Boolean"
  | symbol => "Symbol"
  | bigInteger => "BigInt"

/-- What a primitive of the family is called where one is missing. -/
def noun : Family → String
  | text => "string"
  | number => "number"
  | boolean => "boolean"
  | symbol => "symbol"
  | bigInteger => "BigInt"
  | _ => "object"

/-- The family that the ancestor itself descends from. -/
def parent? : Family → Option Family
  | object => none
  | typeError | rangeError | syntaxError => some error
  | _ => some object

end Family

/-- What a function of the engine does. -/
inductive BuiltIn where
  /-- Answers with undefined. -/
  | nothing
  /-- Throws. -/
  | refuse
  /-- Makes an object or a primitive of a family. -/
  | make (f : Family)
  /-- Answers with the class of its receiver. -/
  | describe
  /-- Calls the method `toString` of its receiver. -/
  | describeLocally
  /-- Answers with its receiver as an object. -/
  | asObject
  /-- Whether its receiver has a property of its own under a key. -/
  | owns
  /-- Whether its receiver has an enumerable property of its own under a key. -/
  | enumerates
  /-- Whether an object descends from its receiver. -/
  | isAncestor
  /-- Answers with the parent of its receiver. -/
  | parent
  /-- Gives its receiver a parent. -/
  | setParent
  /-- Gives its receiver a property that a function computes. -/
  | defineGetter
  /-- Gives its receiver a property whose assignments go to a function. -/
  | defineSetter
  /-- Answers with the function that computes a property of its receiver. -/
  | lookupGetter
  /-- Answers with the function that assignments to a property of its receiver go to. -/
  | lookupSetter
  /-- Answers with the head of the function that is its receiver. -/
  | describeFunction
  /-- Calls its receiver with its first argument as the receiver. -/
  | call
  /-- Calls its receiver with a receiver and a list of arguments. -/
  | apply
  /-- Answers with its receiver bound to a receiver and to first arguments. -/
  | bind
  /-- Answers with the name and the message of its receiver. -/
  | describeError
  /-- Answers with the primitive that its receiver is or wraps. -/
  | primitive (f : Family)
  /-- Answers with the text of the primitive that its receiver is or wraps. -/
  | write (f : Family)
  /-- Answers with the description of the symbol that its receiver is or wraps. -/
  | description
  /-- Answers with a part of the text of its receiver. -/
  | slice
deriving Inhabited

end ProxySession
