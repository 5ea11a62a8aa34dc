/-!
# Flag words

A flag word is 32 bits, of which a family names some. `FlagWord.names` walks the names of the
family in order and takes each one whose bits are all in the word and not all taken by an earlier
name; the written form lists them and then the bits that no name took. Bits without a name are kept
by every operation except `FlagWord.truncate`.
-/

namespace ProxySession

/-- A family of named flags. -/
structure FlagFamily where
  name : String
  members : List (String × UInt32)

/-- A word of flags of one family. -/
structure FlagWord (f : FlagFamily) where
  bits : UInt32
deriving DecidableEq, Inhabited

namespace FlagFamily

/-- The word with a single bit set. -/
def bit (i : Nat) : UInt32 := UInt32.ofNat (Nat.pow 2 i)

/-- Names given to the bits from the lowest one up. -/
def fromLowest (names : List String) : List (String × UInt32) :=
  names.zipIdx.map fun (name, i) => (name, bit i)

/-- The flag of exactly this name. -/
def named? (f : FlagFamily) (name : String) : Option (FlagWord f) :=
  (f.members.find? fun m => m.1 == name).map fun m => ⟨m.2⟩

/-- Every bit that has a name. -/
def known (f : FlagFamily) : UInt32 := f.members.foldl (fun bits m => bits ||| m.2) 0

end FlagFamily

namespace FlagWord

variable {f : FlagFamily}

def isEmpty (a : FlagWord f) : Bool := a.bits == 0

/-- Whether every bit with a name is set. -/
def isAll (a : FlagWord f) : Bool := f.known ||| a.bits == a.bits

def contains (a b : FlagWord f) : Bool := a.bits &&& b.bits == b.bits

def intersects (a b : FlagWord f) : Bool := a.bits &&& b.bits != 0

def union (a b : FlagWord f) : FlagWord f := ⟨a.bits ||| b.bits⟩

def difference (a b : FlagWord f) : FlagWord f := ⟨a.bits &&& ~~~b.bits⟩

/-- Drops the bits without a name. -/
def truncate (a : FlagWord f) : FlagWord f := ⟨a.bits &&& f.known⟩

/-- Whether every bit that is set has a name. -/
def isKnown (a : FlagWord f) : Bool := a.bits &&& f.known == a.bits

/-- The names taken from `members` for the word `bits`, of which `rest` is not taken yet, and the
bits that are left. -/
def takeNames (bits : UInt32) : UInt32 → List (String × UInt32) → List String × UInt32
  | rest, [] => ([], rest)
  | rest, m :: members =>
    if bits &&& m.2 == m.2 && rest &&& m.2 != 0 then
      let (names, left) := takeNames bits (rest &&& ~~~m.2) members
      (m.1 :: names, left)
    else
      takeNames bits rest members

def names (a : FlagWord f) : List String := (takeNames a.bits a.bits f.members).1

/-- The bits that no listed name took. -/
def unnamed (a : FlagWord f) : UInt32 := (takeNames a.bits a.bits f.members).2

/-- A word of bits in lower-case hexadecimal digits. -/
def hexText (bits : UInt32) : String := "0x" ++ String.ofList (Nat.toDigits 16 bits.toNat)

/-- The written form: the family, and in parentheses the names and the remaining bits. -/
def debug (a : FlagWord f) : String :=
  let rest := if a.unnamed != 0 || a.isEmpty then [hexText a.unnamed] else []
  f.name ++ "(" ++ " | ".intercalate (a.names ++ rest) ++ ")"

/-- The flag word at the low end of a 64-bit integer. -/
def ofInt64 (n : Int64) : FlagWord f := ⟨n.toUInt64.toUInt32⟩

end FlagWord

open FlagFamily in
/-- The flags of a type. -/
def typeFlags : FlagFamily where
  name := "TypeFlags"
  members :=
    fromLowest ["ANY", "UNKNOWN", "STRING", "NUMBER", "BOOLEAN", "ENUM", "BIG_INT",
      "STRING_LITERAL", "NUMBER_LITERAL", "BOOLEAN_LITERAL", "ENUM_LITERAL", "BIG_INT_LITERAL",
      "ES_SYMBOL", "UNIQUE_ES_SYMBOL", "VOID", "UNDEFINED", "NULL", "NEVER", "TYPE_PARAMETER",
      "OBJECT", "UNION", "INTERSECTION", "INDEX", "INDEXED_ACCESS", "CONDITIONAL",
      "SUBSTITUTION", "NON_PRIMITIVE", "TEMPLATE_LITERAL", "STRING_MAPPING"]
    ++ [("LITERAL", bit 7 ||| bit 8 ||| bit 11 ||| bit 9),
      ("UNION_OR_INTERSECTION", bit 20 ||| bit 21)]

open FlagFamily in
/-- The flags of an object type. -/
def objectFlags : FlagFamily where
  name := "ObjectFlags"
  members :=
    fromLowest ["CLASS", "INTERFACE", "REFERENCE", "TUPLE", "ANONYMOUS", "MAPPED",
      "INSTANTIATED", "OBJECT_LITERAL", "EVOLVING_ARRAY",
      "OBJECT_LITERAL_PATTERN_WITH_COMPUTED_PROPERTIES", "REVERSE_MAPPED", "JSX_ATTRIBUTES",
      "JS_LITERAL", "FRESH_LITERAL", "ARRAY_LITERAL"]
    ++ [("CLASS_OR_INTERFACE", bit 0 ||| bit 1)]

open FlagFamily in
/-- The flags of a symbol. -/
def symbolFlags : FlagFamily where
  name := "SymbolFlags"
  members :=
    fromLowest ["FUNCTION_SCOPED_VARIABLE", "BLOCK_SCOPED_VARIABLE", "PROPERTY", "ENUM_MEMBER",
      "FUNCTION", "CLASS", "INTERFACE", "CONST_ENUM", "REGULAR_ENUM", "VALUE_MODULE",
      "NAMESPACE_MODULE", "TYPE_LITERAL", "OBJECT_LITERAL", "METHOD", "CONSTRUCTOR",
      "GET_ACCESSOR", "SET_ACCESSOR", "SIGNATURE", "TYPE_PARAMETER", "TYPE_ALIAS",
      "EXPORT_VALUE", "ALIAS", "PROTOTYPE", "EXPORT_STAR", "OPTIONAL", "TRANSIENT",
      "ASSIGNMENT", "MODULE_EXPORTS"]
    ++ [("VARIABLE", bit 0 ||| bit 1), ("ENUM", bit 8 ||| bit 7), ("ACCESSOR", bit 15 ||| bit 16)]

namespace TypeFlags

def object : FlagWord typeFlags := ⟨FlagFamily.bit 19⟩

def union : FlagWord typeFlags := ⟨FlagFamily.bit 20⟩

def intersection : FlagWord typeFlags := ⟨FlagFamily.bit 21⟩

/-- The flags of the literal types that carry a value. -/
def valueLiteral : FlagWord typeFlags :=
  ⟨FlagFamily.bit 7 ||| FlagFamily.bit 8 ||| FlagFamily.bit 11⟩

end TypeFlags

namespace ObjectFlags

def reference : FlagWord objectFlags := ⟨FlagFamily.bit 2⟩

end ObjectFlags

end ProxySession
