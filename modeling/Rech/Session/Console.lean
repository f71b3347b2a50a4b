import Rech.Session.BraceBalance
import Rech.Session.Step
import Rech.Text.Blank
import Rech.Text.Colour
import Rech.Text.LineEnding

/-!
# The console

A console reads lines and runs a snippet as soon as its lines close at least
the braces they open. A line that ends a session does so only between
snippets, where blank lines are skipped. Errors are shown and forgotten; the
store lives as long as the session.
-/

namespace Rech

structure Console where
  store : Store
  pending : List (List Char)
  depth : Int

namespace Console

def start : Console := ⟨∅, [], 0⟩

def greeting : String := "Rech REPL. Type :q to quit.\n"

def prompt (console : Console) : String :=
  if console.pending.isEmpty then "rech> " else "...> "

/-- What is printed of an error. When debugging, nothing is. -/
def complaint (debug : Bool) (text : String) : String :=
  if debug then "" else Text.red text ++ "\n"

def quitWords : List String := [":q", ":quit", "выход"]

inductive Answer where
  | leave
  | stay (output : String) (next : Console)

/-- Runs the pending lines as one snippet. -/
def submit (trace debug : Bool) (console : Console) : Answer :=
  let report := (Step.snippet (console.pending.flatMap (· ++ ['\n']))).perform trace console.store
  let complaints :=
    match report.outcome with
    | .ok _ => ""
    | .error failure => complaint debug (failure.text "")
  .stay (report.printed ++ complaints) ⟨report.store, [], 0⟩

def read (trace debug : Bool) (console : Console) (line : List Char) : Answer :=
  let word := Text.trim (String.ofList line)
  if console.pending.isEmpty && quitWords.contains word then .leave
  else if console.pending.isEmpty && word.isEmpty then .stay "" console
  else
    let fuller : Console :=
      ⟨console.store, console.pending ++ [line], console.depth + braceBalance false line⟩
    if 0 < fuller.depth then .stay "" fuller else fuller.submit trace debug

/-- All that a console prints while it reads lines. The end of the lines ends
the line of the last prompt. -/
def converse (trace debug : Bool) (console : Console) : List (List Char) → String
  | [] => console.prompt ++ "\n"
  | line :: others =>
    console.prompt ++
      match console.read trace debug line with
      | .leave => ""
      | .stay output next => output ++ next.converse trace debug others

end Console

end Rech
