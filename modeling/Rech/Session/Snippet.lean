import Rech.Session.Report

/-!
# Snippets

A snippet is a program or else a single expression whose value is shown. If it
is neither, the error is that of the program.
-/

namespace Rech

inductive Snippet where
  | program (whole : Program)
  | expression (value : Expr)

def Parsing.wholeExpression : Parsing Expr := do
  let value ← expression
  if ← atEnd then return value else unexpected

namespace Snippet

def ofTokens (tokens : List Token) : Except SyntaxError Snippet :=
  match Program.ofTokens tokens with
  | .ok whole => .ok (.program whole)
  | .error error =>
    match Parsing.wholeExpression.ofTokens tokens with
    | .ok value => .ok (.expression value)
    | .error _ => .error error

def ofSource (source : List Char) : Except SyntaxError Snippet := do
  ofTokens (← Token.ofSource source)

/-- A returned value is told and the value of an expression shown. -/
def report (trace : Bool) (store : Store) : Snippet → Report Unit
  | .program whole =>
    ((whole.exec trace store).report.telling fun completion =>
      completion.value?.map fun value => (Event.result value).text).map fun _ => ()
  | .expression value =>
    ((value.report store).telling fun value => some value.display).map fun _ => ()

end Snippet

end Rech
