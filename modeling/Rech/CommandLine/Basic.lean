import Rech.CommandLine.Folder
import Rech.Outline.Tree
import Rech.Session.Console

/-!
# The command line

Flags may stand anywhere; what is left must be a command with its file, or the
console alone. A request that is refused prints why and fails. A command
prints its answer, or the error in red and fails; what it printed before an
error stays. Everything that a command does follows from its arguments, the
files it may read and the lines it is given.
-/

namespace Rech

structure Flags where
  debug : Bool
  trace : Bool
  json : Bool
deriving DecidableEq, Repr

inductive Refusal where
  | usage
  | tokensFlags
  | parseFlags
  | runFlags
  | unknownCommand (name : String)
deriving DecidableEq, Repr

def Refusal.message : Refusal → String
  | .usage => "\n".intercalate [
      "Usage:",
      "  rech tokens <file.rech>",
      "  rech parse <file.rech> [--json]",
      "  rech run <file.rech> [--trace]",
      "  rech repl [--trace]",
      "  (optional) --debug to show Python traceback"]
  | .tokensFlags => "tokens does not accept --trace or --json."
  | .parseFlags => "parse does not accept --trace."
  | .runFlags => "run does not accept --json."
  | .unknownCommand name => s!"Unknown command: {name}"

inductive Command where
  | tokens (path : String)
  | parse (path : String) (json : Bool)
  | run (path : String) (trace : Bool)
  | repl (trace : Bool)
deriving DecidableEq, Repr

namespace Flags

def words : List String := ["--debug", "--trace", "--json"]

def ofArguments (arguments : List String) : Flags where
  debug := arguments.contains "--debug"
  trace := arguments.contains "--trace"
  json := arguments.contains "--json"

end Flags

/-- The command that flags and the remaining arguments ask for. -/
def Command.ofWords (flags : Flags) : List String → Except Refusal Command
  | [] => .error .usage
  | "repl" :: others =>
    if others.isEmpty && !flags.json then .ok (.repl flags.trace) else .error .usage
  | [name, path] =>
    match name with
    | "tokens" =>
      if flags.trace || flags.json then .error .tokensFlags else .ok (.tokens path)
    | "parse" => if flags.trace then .error .parseFlags else .ok (.parse path flags.json)
    | "run" => if flags.json then .error .runFlags else .ok (.run path flags.trace)
    | _ => .error (.unknownCommand name)
  | _ => .error .usage

def Command.ofArguments (arguments : List String) : Except Refusal Command :=
  Command.ofWords (.ofArguments arguments)
    (arguments.filter fun argument => !Flags.words.contains argument)

inductive Problem where
  | file (error : FileError)
  | source (failure : Failure)
deriving DecidableEq

def Problem.text : Problem → String
  | .file error => error.message
  | .source failure => failure.text ""

structure Outcome where
  exitCode : Nat
  output : String
deriving DecidableEq, Repr

/-- The text of the file at a path. Any reader of files serves. -/
def readSource (read : String → Except FileError (List UInt8)) (path : String) :
    Except FileError (List Char) := do
  if path.toList.contains '\x00' then throw .nullByte
  match Utf8.decode (← read path) with
  | .ok text => return Text.unifyLineEndings text
  | .error malformed => throw (.malformed malformed)

def Token.listing (tokens : List Token) : String :=
  String.join <| tokens.map fun token =>
    s!"{token.place.line}:{token.place.column}  {token.inspect}\n"

def Program.listing (json : Bool) (program : Program) : String :=
  (if json then program.outline.json 0 else program.outline.indented 0) ++ "\n"

namespace Command

/-- What a command prints, and why it fails if it does. -/
def perform (read : String → Except FileError (List UInt8)) (lines : List (List Char))
    (debug : Bool) : Command → String × Option Problem
  | .tokens path =>
    match readSource read path with
    | .error error => ("", some (.file error))
    | .ok source =>
      match Token.ofSource source with
      | .error error => ("", some (.source (.unreadable error)))
      | .ok found => (Token.listing found, none)
  | .parse path json =>
    match readSource read path with
    | .error error => ("", some (.file error))
    | .ok source =>
      match Program.ofSource source with
      | .error error => ("", some (.source (.unreadable error)))
      | .ok program => (program.listing json, none)
  | .run path trace =>
    match readSource read path with
    | .error error => ("", some (.file error))
    | .ok source =>
      let report := (Step.run source).perform trace ∅
      match report.outcome with
      | .error failure => (report.printed, some (.source failure))
      | .ok _ => (report.printed, none)
  | .repl trace => (Console.greeting ++ Console.start.converse trace debug lines, none)

end Command

def Outcome.ofArguments (read : String → Except FileError (List UInt8)) (input : List Char)
    (arguments : List String) : Outcome :=
  match Command.ofArguments arguments with
  | .error refusal => ⟨1, refusal.message ++ "\n"⟩
  | .ok command =>
    let debug := (Flags.ofArguments arguments).debug
    match command.perform read (Text.lines input) debug with
    | (output, none) => ⟨0, output⟩
    | (output, some problem) => ⟨1, output ++ Console.complaint debug problem.text⟩

end Rech
