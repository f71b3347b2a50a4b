import Rech.Run.Expression

/-!
# Executing statements

An execution yields events, the store it leaves and an outcome; a failure
keeps the events and the store of what ran before. Every statement is
announced before it runs if the run is traced, and gives its line to an error
that has none, so the innermost statement with a line is the one reported. The
block that a choice takes and the choices chained to it are no statements of
their own. A return ends every statement list around it.
-/

namespace Rech

inductive Event where
  | started
  | executing (line : Option Int) (kind : String)
  | printed (value : Value)
  | finished
  | result (value : Value)
deriving DecidableEq

def Event.text : Event → String
  | .started => "Старт программы..."
  | .executing line kind => s!"TRACE line={Text.numberOrNone line} {kind}"
  | .printed value => s!"вывод: {value.display}"
  | .finished => "Программа завершена!"
  | .result value => s!"Результат: {value.display}"

inductive Completion where
  | normal
  | returned (value : Option Value)
deriving DecidableEq

def Completion.inspect : Completion → String
  | .normal => "Completion(normal)"
  | .returned none => "Completion(return None)"
  | .returned (some value) => s!"Completion(return {value.inspect})"

structure Run (α : Type) where
  events : List Event
  store : Store
  outcome : Except EvalError α

namespace Run

def done (store : Store) (a : α) : Run α := ⟨[], store, .ok a⟩

/-- A failure whose line is not known yet. -/
def fail (store : Store) (cause : EvalError.Cause) : Run α := ⟨[], store, .error ⟨cause, none⟩⟩

def given (store : Store) (result : Except EvalError.Cause α) (next : α → Run β) : Run β :=
  match result with
  | .ok a => next a
  | .error cause => fail store cause

def after (events : List Event) (run : Run α) : Run α where
  events := events ++ run.events
  store := run.store
  outcome := run.outcome

/-- Gives a line to an error that has none. -/
def located (line : Option Int) (run : Run α) : Run α where
  events := run.events
  store := run.store
  outcome := run.outcome.mapError fun error => ⟨error.cause, error.line <|> line⟩

end Run

def Run.andThen (run : Run Completion) (next : Store → Run Completion) : Run Completion :=
  match run.outcome with
  | .ok .normal => (next run.store).after run.events
  | _ => run

/-- What every statement does around its own execution. -/
def Stmt.around (statement : Stmt) (trace : Bool) (run : Run Completion) : Run Completion :=
  (run.located statement.line).after
    (if trace then [.executing statement.line statement.kindName] else [])

def Expr.print (store : Store) (expr : Expr) : Run Completion :=
  .given store (expr.eval store) fun value => ⟨[.printed value], store, .ok .normal⟩

/-- Returning an unset value returns no value. -/
def Completion.ofReturned (value : Value) : Completion :=
  .returned (if value = .unset then none else some value)

def Expr.return (store : Store) : Option Expr → Run Completion
  | none => .done store (.returned none)
  | some expr => .given store (expr.eval store) fun value => .done store (.ofReturned value)

def Expr.discard (store : Store) (expr : Expr) : Run Completion :=
  .given store (expr.eval store) fun _ => .done store .normal

def Assignment.exec (store : Store) (assigned : Assignment) : Run Completion :=
  if store.contains assigned.target.symbol then
    .given store (assigned.value.eval store) fun value =>
      .done (store.insert assigned.target.symbol value) .normal
  else .fail store (.unknownName assigned.target.symbol)

/-- A declared name is unset while its first value is evaluated, and stays so
if that fails. -/
def Declaration.exec (store : Store) (declared : Declaration) : Run Completion :=
  if store.contains declared.identifier.symbol then
    .fail store (.repeatedDeclaration declared.identifier.symbol)
  else declared.init.exec (store.insert declared.identifier.symbol .unset)

mutual
def Stmt.exec (trace : Bool) (store : Store) : Stmt → Run Completion
  | .block inner => (Stmt.block inner).around trace (inner.exec trace store)
  | .choice first => (Stmt.choice first).around trace (first.exec trace store)
  | .print line value => (Stmt.print line value).around trace (value.print store)
  | .return line value => (Stmt.return line value).around trace (Expr.return store value)
  | .declaration declared => (Stmt.declaration declared).around trace (declared.exec store)
  | .assignment assigned => (Stmt.assignment assigned).around trace (assigned.exec store)
  | .expression value => (Stmt.expression value).around trace (value.discard store)

def Block.exec (trace : Bool) (store : Store) : Block → Run Completion
  | .mk _ body => Stmt.execAll trace store body

def Choice.exec (trace : Bool) (store : Store) : Choice → Run Completion
  | .mk _ condition body otherwise =>
    match condition.eval store with
    | .ok true => body.exec trace store
    | .ok false => otherwise.exec trace store
    | .error cause => .fail store cause

def Otherwise.exec (trace : Bool) (store : Store) : Otherwise → Run Completion
  | .nothing => .done store .normal
  | .block chosen => chosen.exec trace store
  | .choice chosen => chosen.exec trace store

def Stmt.execAll (trace : Bool) (store : Store) : List Stmt → Run Completion
  | [] => .done store .normal
  | statement :: others =>
    (statement.exec trace store).andThen fun next => Stmt.execAll trace next others
end

end Rech
