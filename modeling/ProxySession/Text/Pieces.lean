/-!
# Pieces of a text

`pieces` cuts a text at each separator; `joinPieces` puts it together again.
-/

namespace ProxySession.Text

/-- The parts of a text between the separators, of which there is one more than separators. -/
def pieces (separator : Char) : List Char → List (List Char)
  | [] => [[]]
  | c :: rest =>
    if c = separator then [] :: pieces separator rest
    else match pieces separator rest with
      | piece :: others => (c :: piece) :: others
      | [] => [[c]]

/-- The pieces with a separator between any two. -/
def joinPieces (separator : Char) : List (List Char) → List Char
  | [] => []
  | [piece] => piece
  | piece :: rest => piece ++ separator :: joinPieces separator rest

end ProxySession.Text
