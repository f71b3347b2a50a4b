/-!
# Places in a text

Lines and columns are counted from one, columns in code points. A newline
belongs to the line it ends. Places of a text are positive, and a place made
by hand may be any two integers.
-/

namespace Rech

structure Place where
  line : Int
  column : Int
deriving DecidableEq, Repr

namespace Place

def start : Place := ⟨1, 1⟩

/-- The place behind a character. The end of the text, `none`, is as wide as
any character that is not a newline. -/
def after (place : Place) : Option Char → Place
  | some '\n' => ⟨place.line + 1, 1⟩
  | _ => ⟨place.line, place.column + 1⟩

end Place

end Rech
