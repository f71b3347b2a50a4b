import Rech.Text.Place

/-!
# Errors

An error is a cause with the place or line it is reported at; its wording is
a function of the cause. A syntax error has a place unless a stream of tokens
has no end, an evaluation error the line of the statement being executed.
-/

namespace Rech

inductive SyntaxError.Cause where
  | unclosedString
  | streamWithoutEnd
  | missingCondition
  | missingBody
  | conditionWithoutComparison
  | elseWithoutBranch
  | unclosedBlock
  | missingSemicolon
  | unclosedParenthesis
  | badDeclaration
  | badAssignment
  | unexpected (shown : String)
  | expected (message : String)
deriving DecidableEq, Repr

def SyntaxError.Cause.message : SyntaxError.Cause → String
  | .unclosedString => "Ожидалось \""
  | .streamWithoutEnd => "Поток токенов должен заканчиваться EOF"
  | .missingCondition => "Ожидалось ("
  | .missingBody => "Ожидалось \x7b"
  | .conditionWithoutComparison => "Неверное сравнение в блоке ЕСЛИ - ИНАЧЕ"
  | .elseWithoutBranch => "Синтаксическая ошибка в блоке ЕСЛИ - ИНАЧЕ"
  | .unclosedBlock => "Ожидалось \x7d"
  | .missingSemicolon => "Выражения должны заканчиваться символом ;"
  | .unclosedParenthesis => "Ожидалось )."
  | .badDeclaration => "Неверное объявление переменной"
  | .badAssignment => "Неправильное присвоение"
  | .unexpected shown => s!"Неожиданный символ: {shown}"
  | .expected message => message

structure SyntaxError where
  cause : SyntaxError.Cause
  place : Option Place
deriving DecidableEq, Repr

inductive EvalError.Cause where
  | unknownName (name : String)
  | repeatedDeclaration (name : String)
  | mathOnNonNumbers
  | unknownMathOperator (operator : String)
  | comparisonOfNonNumbers
  | unknownComparisonOperator (operator : String)
  | negationOfNonNumber
  | notAValue (kind : String)
  | notAProgram
deriving DecidableEq, Repr

def EvalError.Cause.message : EvalError.Cause → String
  | .unknownName name => s!"Неизвестный идентификатор {name}"
  | .repeatedDeclaration name => s!"Повторное объявление переменной {name}"
  | .mathOnNonNumbers => "Математические операции возможны только с числами"
  | .unknownMathOperator operator => s!"Неизвестный математический оператор: {operator}"
  | .comparisonOfNonNumbers => "Неправильное сравнение"
  | .unknownComparisonOperator operator => s!"Неизвестный оператор сравнения: {operator}"
  | .negationOfNonNumber => "Невозможно выполнить математическое отрицание"
  | .notAValue kind => s!"Неизвестное значение: {kind}"
  | .notAProgram => "Ожидался узел Program"

structure EvalError where
  cause : EvalError.Cause
  line : Option Int
deriving DecidableEq, Repr

def Text.numberOrNone : Option Int → String
  | none => "None"
  | some n => toString n

/-- The text of a syntax error. Without a line the place is left out. -/
def SyntaxError.text (indent message : String) (line column : Option Int) : String :=
  let place :=
    match line with
    | none => ""
    | some n => s!" (строка {n}, позиция {Text.numberOrNone column})"
  s!"{indent}Синтаксическая ошибка: {message}{place}"

/-- The text of an evaluation error. A line goes on a second line of the text. -/
def EvalError.text (indent message : String) (line : Option Int) : String :=
  let place :=
    match line with
    | none => ""
    | some n => s!"\n{indent}  в строке {n}"
  s!"{indent}Ошибка выполнения: {message}{place}"

inductive Failure where
  | unreadable (error : SyntaxError)
  | stopped (error : EvalError)
deriving DecidableEq, Repr

def Failure.text (indent : String) : Failure → String
  | .unreadable error =>
    SyntaxError.text indent error.cause.message (error.place.map Place.line)
      (error.place.map Place.column)
  | .stopped error => EvalError.text indent error.cause.message error.line

end Rech
