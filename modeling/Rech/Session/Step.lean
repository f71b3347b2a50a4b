import Rech.Session.Snippet

/-!
# Session steps

A session works through source texts on one store. A text is executed as a
program, taken as a snippet, evaluated as an expression, whatever follows it,
or run as a program on a store of its own. A step that fails keeps its
effects, and the next one goes on from there.
-/

namespace Rech

inductive Step where
  | execute (source : List Char)
  | snippet (source : List Char)
  | evaluate (source : List Char)
  | run (source : List Char)
deriving DecidableEq, Repr

inductive StepResult where
  | completed (completion : Completion)
  | shown
  | evaluated (value : Value)
  | ran (result : Option Value)
deriving DecidableEq

namespace Step

def perform (trace : Bool) (store : Store) : Step → Report StepResult
  | .execute source =>
    match Program.ofSource source with
    | .error error => .unreadable store error
    | .ok program => (program.exec trace store).report.map .completed
  | .snippet source =>
    match Snippet.ofSource source with
    | .error error => .unreadable store error
    | .ok whole => (whole.report trace store).map fun _ => .shown
  | .evaluate source =>
    match Token.ofSource source >>= Parsing.expression.ofTokens with
    | .error error => .unreadable store error
    | .ok value => (value.report store).map .evaluated
  | .run source =>
    match Program.ofSource source with
    | .error error => .unreadable store error
    | .ok program => { (program.run trace).report.map .ran with store := store }

def performAll (trace : Bool) (store : Store) : List Step → List (Report StepResult)
  | [] => []
  | step :: others =>
    let report := step.perform trace store
    report :: performAll trace report.store others

end Step

end Rech
