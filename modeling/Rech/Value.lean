import Rech.Binary64.Arithmetic
import Rech.Binary64.Written
import Rech.Text.Quoted

/-!
# Values

A name is `unset` between its declaration and its first value. `display` is
what a program prints, `inspect` what a programmer is shown. `same` is the
equality of the language: both zeros are the same number, and what is not a
number is not even the same as itself.
-/

namespace Rech

inductive Value where
  | number (value : Binary64)
  | string (text : String)
  | boolean (flag : Bool)
  | null
  | unset
deriving DecidableEq

namespace Value

inductive Kind where
  | number
  | string
  | boolean
  | null
  | unset
deriving DecidableEq, Repr

def Kind.name : Kind → String
  | .number => "number"
  | .string => "string"
  | .boolean => "boolean"
  | .null => "null"
  | .unset => "unset"

/-- A name that no kind of value has. -/
structure UnknownKind where
  name : String
deriving DecidableEq, Repr

def UnknownKind.message (unknown : UnknownKind) : String :=
  s!"unknown value kind: {unknown.name}"

def Kind.ofName (name : String) : Except UnknownKind Kind :=
  match [number, string, boolean, null, unset].find? (·.name = name) with
  | some kind => .ok kind
  | none => .error ⟨name⟩

def kind : Value → Kind
  | .number _ => .number
  | .string _ => .string
  | .boolean _ => .boolean
  | .null => .null
  | .unset => .unset

def booleanWord (flag : Bool) : String := if flag then "истина" else "ложь"

def display : Value → String
  | .number value => value.display
  | .string text => text
  | .boolean flag => booleanWord flag
  | .null => "ничто"
  | .unset => "неопределено"

def inspect (value : Value) : String :=
  let payload :=
    match value with
    | .number x => x.inspect
    | .string text => Text.quoted text
    | .boolean flag => Text.quoted (booleanWord flag)
    | .null | .unset => "None"
  s!"Value({value.kind.name}, {payload})"

def same : Value → Value → Bool
  | .number a, .number b => a.equal b
  | a, b => a = b

end Value

end Rech
