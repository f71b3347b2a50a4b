import Rech.Binary64.Written
import Rech.Text.Digits
import Rech.Text.Quoted

/-!
# Outlines

Nested maps and lists over scalars, with two written forms. The indented form
puts two spaces before each level, and an empty map or list is an empty line;
it may start at a negative level, and levels below zero stand at the margin.
The bracketed form puts one space before each level and quotes texts.
-/

namespace Rech

inductive Outline where
  | text (content : String)
  | whole (value : Int)
  | number (value : Binary64)
  | truth (flag : Bool)
  | absent
  | list (items : List Outline)
  | map (entries : List (String × Outline))

namespace Outline

/-- Adds an entry at the end, or in place of the one with the same key. -/
def put (entries : List (String × Outline)) (key : String) (value : Outline) :
    List (String × Outline) :=
  if entries.any fun entry => entry.1 = key then
    entries.map fun entry => if entry.1 = key then (key, value) else entry
  else entries ++ [(key, value)]

def ofEntries (entries : List (String × Outline)) : Outline :=
  .map (entries.foldl (fun found entry => put found entry.1 entry.2) [])

def indent (width level : Nat) : String :=
  String.ofList (List.replicate (width * level) ' ')

def margin (level : Int) : String :=
  indent 2 level.toNat

def scalar? : Outline → Option String
  | .text content => some content
  | .whole value => some (toString value)
  | .number value => some value.inspect
  | .truth flag => some (if flag then "True" else "False")
  | .absent => some "None"
  | .list _ | .map _ => none

mutual
def lines (level : Int) : Outline → List String
  | .list [] | .map [] => [""]
  | .list items => itemLines level items
  | .map entries => entryLines level entries
  | outline => outline.scalar?.toList.map (margin level ++ ·)

def itemLines (level : Int) : List Outline → List String
  | [] => []
  | item :: others => (margin level ++ "-") :: item.lines (level + 1) ++ itemLines level others

def entryLines (level : Int) : List (String × Outline) → List String
  | [] => []
  | (key, value) :: others =>
    (match value.scalar? with
      | some shown => [s!"{margin level}{key}: {shown}"]
      | none => (margin level ++ key ++ ":") :: value.lines (level + 1)) ++
        entryLines level others
end

def indented (level : Int) (outline : Outline) : String :=
  "\n".intercalate (outline.lines level)

def escapedChar (c : Char) : List Char :=
  if c = '"' || c = '\\' then ['\\', c]
  else if c = '\n' then ['\\', 'n']
  else if c = '\r' then ['\\', 'r']
  else if c = '\t' then ['\\', 't']
  else if c = '\x08' then ['\\', 'b']
  else if c = '\x0c' then ['\\', 'f']
  else if c.toNat < 0x20 then '\\' :: 'u' :: Text.hexDigits 4 c.toNat
  else [c]

def quoted (text : String) : String :=
  String.ofList ('"' :: text.toList.flatMap escapedChar ++ ['"'])

def numberWord (value : Binary64) : String :=
  match value with
  | .finite .. => value.inspect
  | _ => value.display

def bracketed (opening closing : String) (level : Nat) (items : List String) : String :=
  if items.isEmpty then opening ++ closing
  else
    let inner := ",\n".intercalate (items.map (indent 1 (level + 1) ++ ·))
    s!"{opening}\n{inner}\n{indent 1 level}{closing}"

mutual
def json (level : Nat) : Outline → String
  | .text content => quoted content
  | .whole value => toString value
  | .number value => numberWord value
  | .truth flag => if flag then "true" else "false"
  | .absent => "null"
  | .list items => bracketed "[" "]" level (itemTexts (level + 1) items)
  | .map entries => bracketed "\x7b" "\x7d" level (entryTexts (level + 1) entries)

def itemTexts (level : Nat) : List Outline → List String
  | [] => []
  | item :: others => item.json level :: itemTexts level others

def entryTexts (level : Nat) : List (String × Outline) → List String
  | [] => []
  | (key, value) :: others => s!"{quoted key}: {value.json level}" :: entryTexts level others
end

end Outline

end Rech
