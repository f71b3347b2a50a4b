/-!
# Line endings

A source file may end its lines by a newline, a carriage return or both in a
row; the language sees newlines only.
-/

namespace Rech.Text

def unifyLineEndings : List Char → List Char
  | [] => []
  | '\r' :: '\n' :: rest => '\n' :: unifyLineEndings rest
  | c :: rest => (if c = '\r' then '\n' else c) :: unifyLineEndings rest

/-- The lines of a text, each without the newline that ends it. What follows
the last newline is a line only if it is not empty. -/
def lines : List Char → List (List Char)
  | [] => []
  | c :: rest =>
    if c = '\n' then [] :: lines rest
    else match lines rest with
      | [] => [[c]]
      | line :: others => (c :: line) :: others

end Rech.Text
