/-!
# Open braces

How many braces a text leaves open, which tells the console whether a snippet
is complete. Strings are passed over, an unclosed one to the end, and a
comment ends the count.
-/

namespace Rech

/-- Opening less closing braces. -/
def braceBalance : (inString : Bool) → List Char → Int
  | _, [] => 0
  | true, c :: rest => braceBalance (c != '"') rest
  | false, '/' :: '/' :: _ => 0
  | false, '"' :: rest => braceBalance true rest
  | false, '{' :: rest => braceBalance false rest + 1
  | false, '}' :: rest => braceBalance false rest - 1
  | false, _ :: rest => braceBalance false rest

end Rech
