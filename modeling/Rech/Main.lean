import Rech.CommandLine.Basic

/-!
# The program

Reads arguments, files and lines, and prints what the pure command line
answers. The console is read line by line, so that each answer shows before
the next line is typed.
-/

namespace Rech.Main

def fileError (path : String) : IO.Error → FileError
  | .noFileOrDirectory .. | .noSuchThing .. => .missing path
  | .inappropriateType _ code _ => if code = 21 then .directory path else .notDirectory path
  | .invalidArgument .. => .nameTooLong path
  | error => .unavailable (toString error)

def readFile (path : String) : IO (Except FileError (List UInt8)) := do
  try
    return .ok (← IO.FS.readBinFile path).toList
  catch error =>
    return .error (fileError path error)

def path? : Command → Option String
  | .tokens path | .parse path _ | .run path _ => some path
  | .repl _ => none

/-- The file that the arguments name, read once. -/
def fileOf (arguments : List String) : IO (Except FileError (List UInt8)) := do
  match (Command.ofArguments arguments).toOption.bind path? with
  | some path => readFile path
  | none => return .ok []

partial def converse (trace debug : Bool) (console : Console) : IO Unit := do
  let output ← IO.getStdout
  output.putStr console.prompt
  output.flush
  let line ← (← IO.getStdin).getLine
  if line.isEmpty then output.putStr "\n"
  else
    match console.read trace debug (line.toList.takeWhile (· != '\n')) with
    | .leave => return
    | .stay answer next =>
      output.putStr answer
      converse trace debug next

end Rech.Main

def main (arguments : List String) : IO UInt32 := do
  match Rech.Command.ofArguments arguments with
  | .ok (.repl trace) =>
    IO.print Rech.Console.greeting
    Rech.Main.converse trace (Rech.Flags.ofArguments arguments).debug Rech.Console.start
    return 0
  | _ =>
    let file ← Rech.Main.fileOf arguments
    let outcome := Rech.Outcome.ofArguments (fun _ => file) [] arguments
    IO.print outcome.output
    return outcome.exitCode.toUInt32
