/-!
# Coloured text

Text for a terminal, with the colour reset behind it.
-/

namespace Rech.Text

def red (text : String) : String :=
  s!"\x1b[31m{text}\x1b[0m"

end Rech.Text
