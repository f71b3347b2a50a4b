/-!
# Blank characters

The characters that `trim` removes from both ends of a text: the character
standard's white space together with the four information separators.
-/

namespace Rech.Text

def isBlank (c : Char) : Bool :=
  [0x85, 0xA0, 0x1680, 0x2028, 0x2029, 0x202F, 0x205F, 0x3000].contains c.toNat ||
    [(0x9, 0xD), (0x1C, 0x20), (0x2000, 0x200A)].any fun range =>
      range.1 ≤ c.toNat && c.toNat ≤ range.2

def trim (text : String) : String :=
  String.ofList ((text.toList.dropWhile isBlank).reverse.dropWhile isBlank).reverse

end Rech.Text
