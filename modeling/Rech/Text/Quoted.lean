import Rech.Text.Printable

/-!
# Quoted text

A text shown between quotes. The quote is single, unless the text holds a
single quote and no double one. The quote and the backslash are escaped by a
backslash, and tab, newline and carriage return have letters. Every other
character that is not printable is written by its code point, in the first of
two, four and eight hexadecimal digits that suffices.
-/

namespace Rech.Text

def hexDigit (n : Nat) : Char :=
  if n < 10 then Char.ofNat (0x30 + n) else Char.ofNat (0x61 + (n - 10))

def hexDigits : Nat → Nat → List Char
  | 0, _ => []
  | width + 1, n => hexDigits width (n / 16) ++ [hexDigit (n % 16)]

def codePointEscape (code : Nat) : List Char :=
  if code < 0x100 then '\\' :: 'x' :: hexDigits 2 code
  else if code < 0x10000 then '\\' :: 'u' :: hexDigits 4 code
  else '\\' :: 'U' :: hexDigits 8 code

def escaped (quote c : Char) : List Char :=
  if c = quote || c = '\\' then ['\\', c]
  else if c = '\t' then ['\\', 't']
  else if c = '\n' then ['\\', 'n']
  else if c = '\r' then ['\\', 'r']
  else if isPrintable c then [c]
  else codePointEscape c.toNat

def quoted (text : String) : String :=
  let quote := if text.toList.contains '\'' && !text.toList.contains '"' then '"' else '\''
  String.ofList (quote :: text.toList.flatMap (escaped quote) ++ [quote])

end Rech.Text
