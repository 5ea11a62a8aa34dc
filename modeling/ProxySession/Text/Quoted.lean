import ProxySession.Text.Unprintable
import ProxySession.Text.Extending

/-!
# Quoted text

`quote` writes a text between double quotes so that every character is visible: the quote, the
backslash and the usual controls by a backslash, a character without a printed form of its own by
its code point in braces.
-/

namespace ProxySession.Text

/-- A number in lower-case hexadecimal digits. -/
def hex (n : Nat) : String := String.ofList (Nat.toDigits 16 n)

/-- The characters from the space to the tilde, which all have a printed form. -/
def isPlain (c : Char) : Bool := decide (0x20 ≤ c.toNat ∧ c.toNat < 0x7f)

/-- The visible form of one character between quotes. -/
def escape (c : Char) : String :=
  if c = '\x00' then "\\0"
  else if c = '\t' then "\\t"
  else if c = '\r' then "\\r"
  else if c = '\n' then "\\n"
  else if c = '\\' then "\\\\"
  else if c = '"' then "\\\""
  else if isPlain c then String.singleton c
  else if isExtending c || !isPrintable c then "\\u\x7b" ++ hex c.toNat ++ "\x7d"
  else String.singleton c

/-- A text between quotes, each character in its visible form. -/
def quote (s : String) : String :=
  "\"" ++ String.join (s.toList.map escape) ++ "\""

end ProxySession.Text
