import Rech.Text.Letter
import Rech.Token.Basic

/-!
# Lexemes

What stands at the front of a source text. A lexeme is the longest table key,
else a number, a string in quotes or an identifier; blanks, comments and
characters that begin no lexeme are gaps. Keywords are table keys like the
operators, so an identifier that begins with one is split.
-/

namespace Rech.Token

/-- The fixed spellings, longer ones first, so that the first one that fits is
the longest. -/
def table : List (List Char × Kind) := [
  (['н', 'а', 'п', 'е', 'ч', 'а', 'т', 'а', 'т', 'ь'], .printWord),
  (['в', 'е', 'р', 'н', 'у', 'т', 'ь'], .returnWord),
  (['п', 'у', 'с', 'т', 'ь'], .letWord),
  (['и', 'н', 'а', 'ч', 'е'], .elseWord),
  (['н', 'и', 'ч', 'т', 'о'], .nullWord),
  (['е', 'с', 'л', 'и'], .ifWord),
  (['=', '=', '='], .comparison),
  (['!', '=', '='], .comparison),
  (['=', '='], .comparison),
  (['!', '='], .comparison),
  (['<', '='], .comparison),
  (['>', '='], .comparison),
  (['/', '/'], .comment),
  (['+'], .math),
  (['-'], .math),
  (['*'], .math),
  (['/'], .math),
  (['%'], .math),
  (['<'], .comparison),
  (['>'], .comparison),
  (['='], .assign),
  (['!'], .bang),
  (['('], .leftParen),
  ([')'], .rightParen),
  (['{'], .leftBrace),
  (['}'], .rightBrace),
  ([';'], .semicolon)]

def key? (text : List Char) : Option (List Char × Kind) :=
  table.find? fun entry => entry.1.isPrefixOf text

/-- The blanks between tokens. Other blank characters begin no lexeme either. -/
def isSpace (c : Char) : Bool :=
  [' ', '\n', '\t', '\r', '\x0c', '\x0b'].contains c

def isNumeric (c : Char) : Bool :=
  ['0', '1', '2', '3', '4', '5', '6', '7', '8', '9', '.'].contains c

def isIdentifierChar (c : Char) : Bool :=
  Text.isLetter c || ['0', '1', '2', '3', '4', '5', '6', '7', '8', '9', '_', '$'].contains c

def beginsComment (text : List Char) : Bool :=
  match key? text with
  | some (_, kind) => kind = .comment
  | none => false

def beginsLexeme : List Char → Bool
  | [] => false
  | c :: rest =>
    match key? (c :: rest) with
    | some (_, kind) => kind != .comment
    | none => isNumeric c || c = '"' || isIdentifierChar c

/-- The number of characters before the next lexeme, or before the end. A
comment reaches through the next newline. -/
def gap : (inComment : Bool) → List Char → Nat
  | _, [] => 0
  | true, c :: rest => gap (c != '\n') rest + 1
  | false, c :: rest =>
    if isSpace c then gap false rest + 1
    else if beginsComment (c :: rest) then gap true rest + 1
    else if beginsLexeme (c :: rest) then 0
    else gap false rest + 1

theorem drop_gap (inComment : Bool) (text : List Char) :
    text.drop (gap inComment text) = [] ∨
      beginsLexeme (text.drop (gap inComment text)) = true := by
  fun_induction gap inComment text with
  | case1 => simp
  | case2 c rest ih => simpa using ih
  | case3 c rest _ ih => simpa using ih
  | case4 c rest _ _ ih => simpa using ih
  | case5 c rest _ _ h => exact .inr (by simpa using h)
  | case6 c rest _ _ _ ih => simpa using ih

/-- The number of characters of a comment's text with the newline that ends it. -/
def commentLength (text : List Char) : Nat :=
  let run := (text.takeWhile (· != '\n')).length
  if run < text.length then run + 1 else run

theorem ne_nil_of_mem_table : ∀ entry ∈ table, entry.1 ≠ [] := by
  decide

theorem kind_ne_endOfFile_of_mem_table : ∀ entry ∈ table, entry.2 ≠ .endOfFile := by
  decide

theorem mem_table_of_key? {text : List Char} {entry : List Char × Kind}
    (h : key? text = some entry) : entry ∈ table :=
  List.mem_of_find?_eq_some h

end Rech.Token
