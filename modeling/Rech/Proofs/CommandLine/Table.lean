import Rech.CommandLine.Basic
import Rech.Proofs.Grammar.Source
import Rech.Proofs.Session.Grouping
import Rech.Proofs.Text.InLine

/-!
# The table of commands

What a command line asks for follows from its flags and its other words. A file is read,
cut, parsed and run, and the first of these that fails is what the command fails with.
Nothing is printed of a file before it is run. When debugging, what is printed lacks the
errors and nothing else.
-/

namespace Rech

abbrev Files := String → Except FileError (List UInt8)

-- ---------------------------------------------------------------------------
-- Requests
-- ---------------------------------------------------------------------------

def Command.words (arguments : List String) : List String :=
  arguments.filter (· ∉ ["--debug", "--trace", "--json"])

/-- What arguments ask for. Flags may stand anywhere. -/
inductive Command.Asked (arguments : List String) : Command → Prop
  | repl (words : words arguments = ["repl"]) (json : "--json" ∉ arguments) :
      Asked arguments (.repl ("--trace" ∈ arguments))
  | tokens (words : words arguments = ["tokens", path]) (trace : "--trace" ∉ arguments)
      (json : "--json" ∉ arguments) : Asked arguments (.tokens path)
  | parse (words : words arguments = ["parse", path]) (trace : "--trace" ∉ arguments) :
      Asked arguments (.parse path ("--json" ∈ arguments))
  | run (words : words arguments = ["run", path]) (json : "--json" ∉ arguments) :
      Asked arguments (.run path ("--trace" ∈ arguments))

theorem Flags.ofArguments_eq (arguments : List String) : ofArguments arguments =
    ⟨"--debug" ∈ arguments, "--trace" ∈ arguments, "--json" ∈ arguments⟩ := by
  simp [ofArguments]

theorem Command.ofArguments_eq (arguments : List String) : ofArguments arguments =
    ofWords ⟨"--debug" ∈ arguments, "--trace" ∈ arguments, "--json" ∈ arguments⟩
      (words arguments) := by
  simp [ofArguments, Flags.ofArguments_eq, words, Flags.words]

theorem Command.Asked.ofArguments_eq (h : Asked arguments command) :
    ofArguments arguments = .ok command := by
  rw [Command.ofArguments_eq]
  cases h with
  | repl words json => simp [ofWords, words, json]
  | tokens words trace json => simp [ofWords, words, trace, json]
  | parse words trace => simp [ofWords, words, trace]
  | run words json => simp [ofWords, words, json]

theorem Command.asked_of_ofArguments (h : ofArguments arguments = .ok command) :
    Asked arguments command := by
  rw [ofArguments_eq] at h
  generalize hwords : words arguments = others at h
  -- The cases are those of the words, and for a file those of the name of the command.
  unfold ofWords at h
  split at h
  next => nomatch h
  next =>
    split at h
    next accepted =>
      simp only [Bool.and_eq_true, List.isEmpty_iff, Bool.not_eq_true',
        decide_eq_false_iff_not] at accepted
      obtain ⟨rfl, json⟩ := accepted
      cases h
      exact .repl hwords json
    next => nomatch h
  next name path _ =>
    split at h
    next =>
      split at h
      next => nomatch h
      next accepted =>
        simp only [Bool.or_eq_true, decide_eq_true_eq, not_or] at accepted
        cases h
        exact .tokens hwords accepted.1 accepted.2
    next =>
      split at h
      next => nomatch h
      next trace =>
        cases h
        exact .parse hwords (by simpa using trace)
    next =>
      split at h
      next => nomatch h
      next json =>
        cases h
        exact .run hwords (by simpa using json)
    next => nomatch h
  next => nomatch h

theorem Command.ofArguments_eq_ok_iff {arguments : List String} {command : Command} :
    ofArguments arguments = .ok command ↔ Asked arguments command :=
  ⟨asked_of_ofArguments, Asked.ofArguments_eq⟩

theorem Command.ofArguments_congr {arguments others : List String}
    (hwords : words others = words arguments)
    (flags : ∀ flag ∈ ["--trace", "--json"], flag ∈ others ↔ flag ∈ arguments) :
    ofArguments others = ofArguments arguments := by
  have trace := flags "--trace" (by decide)
  have json := flags "--json" (by decide)
  simp only [ofArguments_eq, hwords, trace, json]
  rfl

-- ---------------------------------------------------------------------------
-- Files
-- ---------------------------------------------------------------------------

inductive Files.Lexes (read : Files) (path : String) : Except Problem (List Token) → Prop
  | unreadable (file : readSource read path = .error error) :
      Lexes read path (.error (.file error))
  | broken (file : readSource read path = .ok source)
      (cut : Token.ofSource source = .error error) :
      Lexes read path (.error (.source (.unreadable error)))
  | lexed (file : readSource read path = .ok source) (cut : Token.ofSource source = .ok found) :
      Lexes read path (.ok found)

inductive Files.Parses (read : Files) (path : String) : Except Problem Program → Prop
  | unlexed (tokens : read.Lexes path (.error problem)) : Parses read path (.error problem)
  | broken (tokens : read.Lexes path (.ok found)) (tree : Program.ofTokens found = .error error) :
      Parses read path (.error (.source (.unreadable error)))
  | parsed (tokens : read.Lexes path (.ok found)) (tree : Program.ofTokens found = .ok program) :
      Parses read path (.ok program)

/-- The lines that running a file prints, and why it fails if it does. -/
inductive Files.Runs (read : Files) (path : String) (trace : Bool) :
    List String → Option Problem → Prop
  | unparsed (tree : read.Parses path (.error problem)) : Runs read path trace [] (some problem)
  | stopped (tree : read.Parses path (.ok program))
      (run : (program.run trace).outcome = .error error) :
      Runs read path trace ((program.run trace).events.map Event.text)
        (some (.source (.stopped error)))
  | ended (tree : read.Parses path (.ok program))
      (run : (program.run trace).outcome = .ok result) :
      Runs read path trace ((program.run trace).events.map Event.text) none

namespace Command

/-- Whether a command does all that it is to do. -/
inductive Succeeds (read : Files) : Command → Prop
  | repl : Succeeds read (.repl trace)
  | tokens (tokens : read.Lexes path (.ok found)) : Succeeds read (.tokens path)
  | parse (tree : read.Parses path (.ok program)) : Succeeds read (.parse path json)
  | run (runs : read.Runs path trace shown none) : Succeeds read (.run path trace)

/-- The lines that a command has printed when it fails, and why it does. -/
inductive Fails (read : Files) : Command → List String → Problem → Prop
  | tokens (tokens : read.Lexes path (.error problem)) : Fails read (.tokens path) [] problem
  | parse (tree : read.Parses path (.error problem)) : Fails read (.parse path json) [] problem
  | run (runs : read.Runs path trace shown (some problem)) :
      Fails read (.run path trace) shown problem

end Command

variable {read : Files} {path : String}

namespace Files

theorem exists_lexes (read : Files) (path : String) : ∃ result, read.Lexes path result := by
  cases file : readSource read path with
  | error => exact ⟨_, .unreadable file⟩
  | ok source =>
    cases cut : Token.ofSource source with
    | error => exact ⟨_, .broken file cut⟩
    | ok => exact ⟨_, .lexed file cut⟩

theorem exists_parses (read : Files) (path : String) : ∃ result, read.Parses path result := by
  obtain ⟨result, tokens⟩ := exists_lexes read path
  cases result with
  | error => exact ⟨_, .unlexed tokens⟩
  | ok found =>
    cases tree : Program.ofTokens found with
    | error => exact ⟨_, .broken tokens tree⟩
    | ok => exact ⟨_, .parsed tokens tree⟩

theorem exists_runs (read : Files) (path : String) (trace : Bool) :
    ∃ shown problem?, read.Runs path trace shown problem? := by
  obtain ⟨result, tree⟩ := exists_parses read path
  cases result with
  | error => exact ⟨_, _, .unparsed tree⟩
  | ok program =>
    cases run : (program.run trace).outcome with
    | error => exact ⟨_, _, .stopped tree run⟩
    | ok => exact ⟨_, _, .ended tree run⟩

theorem Parses.source_of_error (h : read.Parses path (.error problem)) :
    (∃ error, problem = .file error ∧ readSource read path = .error error) ∨
      ∃ source error, problem = .source (.unreadable error) ∧
        readSource read path = .ok source ∧ Program.ofSource source = .error error := by
  cases h with
  | unlexed tokens =>
    cases tokens with
    | unreadable file => exact .inl ⟨_, rfl, file⟩
    | broken file cut => exact .inr ⟨_, _, rfl, file, Program.ofSource_of_error cut⟩
  | broken tokens tree =>
    cases tokens with
    | lexed file cut =>
      exact .inr ⟨_, _, rfl, file, (Program.ofSource_of_tokens cut).trans tree⟩

theorem Parses.source_of_ok (h : read.Parses path (.ok program)) :
    ∃ source, readSource read path = .ok source ∧ Program.ofSource source = .ok program := by
  cases h with
  | parsed tokens tree =>
    cases tokens with
    | lexed file cut => exact ⟨_, file, (Program.ofSource_of_tokens cut).trans tree⟩

end Files

namespace Command

theorem succeeds_or_fails (read : Files) (command : Command) :
    command.Succeeds read ∨ ∃ shown problem, command.Fails read shown problem := by
  cases command with
  | tokens path =>
    obtain ⟨result, tokens⟩ := Files.exists_lexes read path
    cases result with
    | error => exact .inr ⟨_, _, .tokens tokens⟩
    | ok => exact .inl (.tokens tokens)
  | parse path =>
    obtain ⟨result, tree⟩ := Files.exists_parses read path
    cases result with
    | error => exact .inr ⟨_, _, .parse tree⟩
    | ok => exact .inl (.parse tree)
  | run path trace =>
    obtain ⟨shown, problem?, runs⟩ := Files.exists_runs read path trace
    cases problem? with
    | none => exact .inl (.run runs)
    | some => exact .inr ⟨_, _, .run runs⟩
  | repl => exact .inl .repl

variable {command : Command} (lines : List (List Char)) (debug : Bool)

theorem Succeeds.perform (h : command.Succeeds read) :
    (command.perform read lines debug).2 = none := by
  cases h with
  | repl => rfl
  | tokens tokens =>
    cases tokens with
    | lexed file cut => simp only [Command.perform, file, cut]
  | parse tree =>
    obtain ⟨source, file, parses⟩ := tree.source_of_ok
    simp only [Command.perform, file, parses]
  | run runs =>
    cases runs with
    | ended tree run =>
      obtain ⟨source, file, parses⟩ := tree.source_of_ok
      simp only [Command.perform, file, Step.perform, parses, Report.map, Run.report, run]
      rfl

theorem Fails.perform (h : command.Fails read shown problem) :
    command.perform read lines debug = (Text.printed shown, some problem) := by
  cases h with
  | tokens tokens =>
    cases tokens with
    | unreadable file =>
      simp only [Command.perform, file]
      rfl
    | broken file cut =>
      simp only [Command.perform, file, cut]
      rfl
  | parse tree =>
    rcases tree.source_of_error with ⟨error, rfl, file⟩ | ⟨source, error, rfl, file, parses⟩
    · simp only [Command.perform, file]
      rfl
    · simp only [Command.perform, file, parses]
      rfl
  | run runs =>
    cases runs with
    | unparsed tree =>
      rcases tree.source_of_error with ⟨error, rfl, file⟩ | ⟨source, error, rfl, file, parses⟩
      · simp only [Command.perform, file]
        rfl
      · simp only [Command.perform, file, Step.perform, parses]
        rfl
    | stopped tree run =>
      obtain ⟨source, file, parses⟩ := tree.source_of_ok
      simp only [Command.perform, file, Step.perform, parses, Report.map, Run.report, run]
      rfl

end Command

-- ---------------------------------------------------------------------------
-- Debugging
-- ---------------------------------------------------------------------------

def Problem.told : Problem → String
  | .file error => error.message
  | .source failure => failure.told

theorem Problem.text_eq_told (problem : Problem) : problem.text = problem.told := by
  cases problem with
  | file => rfl
  | source failure => exact failure.text_eq_told

/-- A part of what is printed: a text as it is, or an error in red. -/
inductive Fragment where
  | plain (text : String)
  | complaint (problem : Problem)

namespace Fragment

def shown (debug : Bool) : Fragment → String
  | plain text => text
  | complaint problem => if debug then "" else "\x1b[31m" ++ problem.told ++ "\x1b[0m" ++ "\n"

def printed (debug : Bool) (fragments : List Fragment) : String :=
  String.join (fragments.map (shown debug))

def problem? : Fragment → Option Problem
  | plain _ => none
  | complaint problem => some problem

/-- A text falls into fragments which tell of some problems, whether errors are shown or
not. -/
def Tells (text : Bool → String) (problems : List Problem) : Prop :=
  ∃ fragments, fragments.filterMap problem? = problems ∧
    ∀ debug, text debug = printed debug fragments

theorem tells_plain (text : String) : Tells (fun _ => text) [] :=
  ⟨[plain text], rfl, fun debug => by simp [printed, shown]⟩

theorem tells_complaint (problem : Problem) :
    Tells (fun debug => if debug then "" else "\x1b[31m" ++ problem.told ++ "\x1b[0m" ++ "\n")
      [problem] :=
  ⟨[complaint problem], rfl, fun debug => by simp [printed, shown]⟩

theorem Tells.append (h : Tells text problems) (hother : Tells other more) :
    Tells (fun debug => text debug ++ other debug) (problems ++ more) := by
  obtain ⟨fragments, rfl, htext⟩ := h
  obtain ⟨others, rfl, hmore⟩ := hother
  exact ⟨fragments ++ others, by simp, fun debug => by simp [htext, hmore, printed]⟩

end Fragment

def Turn.problem? (trace : Bool) (turn : Turn) : Option Problem :=
  match (turn.report trace).outcome with
  | .ok _ => none
  | .error failure => some (.source failure)

theorem Turn.tells (trace : Bool) (turn : Turn) :
    Fragment.Tells (turn.output trace) (turn.problem? trace).toList := by
  unfold Turn.output Turn.problem?
  cases (turn.report trace).outcome with
  | ok => exact (Fragment.tells_plain _).append (Fragment.tells_plain "")
  | error failure =>
    exact (Fragment.tells_plain _).append (Fragment.tells_complaint (.source failure))

namespace Console

/-- Why the snippets of the pieces fail, as far as they do. -/
def problems (trace : Bool) (store : Store) (pieces : List Piece) : List Problem :=
  (Step.turns trace store (pieces.filterMap Piece.step?)).flatMap fun turn =>
    (turn.problem? trace).toList

theorem problems_submitted (trace : Bool) (store : Store) (chunk : List Line)
    (others : List Piece) : problems trace store (.submitted chunk :: others) =
      ((holding store chunk).turn.problem? trace).toList ++
        problems trace ((holding store chunk).turn.report trace).store others := by
  have hstep : Piece.step? (.submitted chunk) = some (holding store chunk).turn.step := rfl
  rw [problems, List.filterMap_cons_some hstep, Step.turns, List.flatMap_cons]
  rfl

/-- A console goes on behind an error, and what it prints then does not depend on whether
the error is shown. -/
theorem Grouped.tells (h : Grouped lines pieces unread) (trace quits : Bool) (store : Store) :
    Fragment.Tells (fun debug => told trace debug quits store pieces)
      (problems trace store pieces) := by
  induction h generalizing store with
  | done | quit => exact Fragment.tells_plain _
  | skipped _ _ ih => exact (Fragment.tells_plain _).append (ih store)
  | @submitted chunk _ _ _ _ _ ih =>
    rw [problems_submitted]
    exact (Fragment.tells_plain _).append (((holding store chunk).turn.tells trace).append (ih _))
  | unfinished => exact Fragment.tells_plain _

theorem start_tells (trace : Bool) (lines : List Line) : ∃ pieces unread,
    Grouped lines pieces unread ∧
      Fragment.Tells (fun debug => start.converse trace debug lines)
        (problems trace ∅ pieces) := by
  obtain ⟨pieces, unread, hgrouped, hconducts⟩ := exists_grouped lines held_nil
  refine ⟨pieces, unread, hgrouped, ?_⟩
  have htold (debug : Bool) := hconducts.told_eq trace debug ∅
  simp only [prompts_nil, String.empty_append] at htold
  simpa only [start_eq, htold] using hgrouped.tells trace (!unread.isEmpty) ∅

end Console

-- ---------------------------------------------------------------------------
-- Outcomes
-- ---------------------------------------------------------------------------

namespace Outcome

/-- The problems that a command line has. A console goes on behind each of its own. -/
inductive Problems (read : Files) (lines : List Console.Line) (arguments : List String) :
    List Problem → Prop
  | refused (refused : ¬∃ command, Command.Asked arguments command) :
      Problems read lines arguments []
  | repl (asked : Command.Asked arguments (.repl trace))
      (grouped : Console.Grouped lines pieces unread) :
      Problems read lines arguments (Console.problems trace ∅ pieces)
  | succeeds (asked : Command.Asked arguments command) (ends : ∀ trace, command ≠ .repl trace)
      (succeeds : command.Succeeds read) : Problems read lines arguments []
  | fails (asked : Command.Asked arguments command) (fails : command.Fails read shown problem) :
      Problems read lines arguments [problem]

variable {arguments : List String} {input : List Char} {command : Command}

theorem ofArguments_refused {refusal : Refusal}
    (h : Command.ofArguments arguments = .error refusal) :
    ofArguments read input arguments = ⟨1, refusal.message ++ "\n"⟩ := by
  rw [ofArguments, h]

theorem ofArguments_succeeds (h : Command.ofArguments arguments = .ok command)
    (hs : command.Succeeds read) : ofArguments read input arguments =
      ⟨0, (command.perform read (Text.lines input) ("--debug" ∈ arguments)).1⟩ := by
  have hnone := hs.perform (Text.lines input) ("--debug" ∈ arguments)
  simp only [ofArguments, h, Flags.ofArguments_eq]
  split
  next heq => rw [heq]
  next heq =>
    rw [heq] at hnone
    nomatch hnone

theorem ofArguments_fails (h : Command.ofArguments arguments = .ok command)
    (hf : command.Fails read shown problem) : ofArguments read input arguments =
      ⟨1, Text.printed shown ++
        if "--debug" ∈ arguments then "" else "\x1b[31m" ++ problem.told ++ "\x1b[0m" ++ "\n"⟩ := by
  simp only [ofArguments, h, hf.perform, Flags.ofArguments_eq, Console.complaint_eq,
    problem.text_eq_told, decide_eq_true_eq]

theorem exitCode_eq_zero_or_one (read : Files) (input : List Char) (arguments : List String) :
    (ofArguments read input arguments).exitCode = 0 ∨
      (ofArguments read input arguments).exitCode = 1 := by
  cases h : Command.ofArguments arguments with
  | error => exact .inr (by rw [ofArguments_refused h])
  | ok command =>
    rcases command.succeeds_or_fails read with hs | ⟨shown, problem, hf⟩
    · exact .inl (by rw [ofArguments_succeeds h hs])
    · exact .inr (by rw [ofArguments_fails h hf])

theorem exitCode_eq_zero_iff : (ofArguments read input arguments).exitCode = 0 ↔
    ∃ command, Command.Asked arguments command ∧ command.Succeeds read := by
  simp only [← Command.ofArguments_eq_ok_iff]
  refine ⟨fun hzero => ?_, fun ⟨command, h, hs⟩ => by rw [ofArguments_succeeds h hs]⟩
  cases h : Command.ofArguments arguments with
  | error =>
    rw [ofArguments_refused h] at hzero
    nomatch hzero
  | ok command =>
    rcases command.succeeds_or_fails read with hs | ⟨shown, problem, hf⟩
    · exact ⟨command, rfl, hs⟩
    · rw [ofArguments_fails h hf] at hzero
      nomatch hzero

theorem succeeds_tells (asked : Command.Asked arguments command) (hs : command.Succeeds read)
    (lines : List Console.Line) : ∃ problems, Problems read lines arguments problems ∧
      Fragment.Tells (fun debug => (command.perform read lines debug).1) problems := by
  cases command with
  | tokens path =>
    refine ⟨[], .succeeds asked nofun hs, ?_⟩
    exact Fragment.tells_plain ((Command.tokens path).perform read lines true).1
  | parse path json =>
    refine ⟨[], .succeeds asked nofun hs, ?_⟩
    exact Fragment.tells_plain ((Command.parse path json).perform read lines true).1
  | run path trace =>
    refine ⟨[], .succeeds asked nofun hs, ?_⟩
    exact Fragment.tells_plain ((Command.run path trace).perform read lines true).1
  | repl trace =>
    obtain ⟨pieces, unread, hgrouped, htells⟩ := Console.start_tells trace lines
    exact ⟨_, .repl asked hgrouped, (Fragment.tells_plain Console.greeting).append htells⟩

theorem exists_tells (read : Files) (input : List Char) (arguments : List String) :
    ∃ exitCode text problems, Problems read (Text.lines input) arguments problems ∧
      Fragment.Tells text problems ∧
      ∀ others, Command.words others = Command.words arguments →
        (∀ flag ∈ ["--trace", "--json"], flag ∈ others ↔ flag ∈ arguments) →
        ofArguments read input others = ⟨exitCode, text ("--debug" ∈ others)⟩ := by
  cases h : Command.ofArguments arguments with
  | error refusal =>
    have refused : ¬∃ command, Command.Asked arguments command := by
      simp [← Command.ofArguments_eq_ok_iff, h]
    refine ⟨1, _, [], .refused refused, Fragment.tells_plain (refusal.message ++ "\n"), ?_⟩
    intro others words flags
    exact ofArguments_refused ((Command.ofArguments_congr words flags).trans h)
  | ok command =>
    have asked := Command.asked_of_ofArguments h
    rcases command.succeeds_or_fails read with hs | ⟨shown, problem, hf⟩
    · obtain ⟨problems, hproblems, htells⟩ := succeeds_tells asked hs (Text.lines input)
      refine ⟨0, _, problems, hproblems, htells, fun others words flags => ?_⟩
      exact ofArguments_succeeds ((Command.ofArguments_congr words flags).trans h) hs
    · refine ⟨1, _, [problem], .fails asked hf,
        (Fragment.tells_plain (Text.printed shown)).append (Fragment.tells_complaint problem), ?_⟩
      intro others words flags
      simp only [ofArguments_fails ((Command.ofArguments_congr words flags).trans h) hf,
        decide_eq_true_eq]

/-- The flags and the other words decide what a command line does, where `command` is what
they ask for: it exits with zero if that succeeds, and with one if it fails or is refused.
A failure leaves the lines printed so far and the error in red, which debugging hides. -/
theorem decided_by_table (read : Files) (input : List Char) (arguments : List String) :
    (∀ others, Command.words others = Command.words arguments →
      (∀ flag ∈ ["--debug", "--trace", "--json"], flag ∈ others ↔ flag ∈ arguments) →
      ofArguments read input others = ofArguments read input arguments) ∧
    ((ofArguments read input arguments).exitCode = 0 ↔
      ∃ command, Command.Asked arguments command ∧ command.Succeeds read) ∧
    ((ofArguments read input arguments).exitCode = 0 ∨
      (ofArguments read input arguments).exitCode = 1) ∧
    (∀ command, Command.Asked arguments command → ¬command.Succeeds read →
      ∃ shown problem, command.Fails read shown problem ∧
        (ofArguments read input arguments).output = Text.printed shown ++
          if "--debug" ∈ arguments then "" else "\x1b[31m" ++ problem.told ++ "\x1b[0m" ++ "\n") ∧
    ∃ fragments,
      Problems read (Text.lines input) arguments (fragments.filterMap Fragment.problem?) ∧
      ∀ others, Command.words others = Command.words arguments →
        (∀ flag ∈ ["--trace", "--json"], flag ∈ others ↔ flag ∈ arguments) →
        ofArguments read input others = ⟨(ofArguments read input arguments).exitCode,
          Fragment.printed ("--debug" ∈ others) fragments⟩ := by
  obtain ⟨exitCode, text, problems, hproblems, htells, hothers⟩ :=
    exists_tells read input arguments
  have hself := hothers arguments rfl fun _ _ => Iff.rfl
  refine ⟨fun others words flags => ?_, exitCode_eq_zero_iff,
    exitCode_eq_zero_or_one read input arguments, fun command asked hno => ?_, ?_⟩
  · have debug := flags "--debug" (by decide)
    rw [hself, hothers others words fun flag hflag => flags flag (List.mem_cons_of_mem _ hflag)]
    simp only [debug]
  · obtain ⟨shown, problem, hf⟩ := (command.succeeds_or_fails read).resolve_left hno
    refine ⟨shown, problem, hf, ?_⟩
    rw [ofArguments_fails asked.ofArguments_eq hf]
  · obtain ⟨fragments, rfl, htext⟩ := htells
    refine ⟨fragments, hproblems, fun others words flags => ?_⟩
    rw [hself, hothers others words flags, htext]

/-- A file of one statement, which evaluates an unknown name. -/
def sampleFiles : Files := fun _ => .ok [0x78, 0x3b]

theorem decided_by_table_failing :
    Command.Asked ["--trace", "run", "p"] (.run "p" true) ∧
    ¬(Command.run "p" true).Succeeds sampleFiles ∧
    ∃ shown problem, (Command.run "p" true).Fails sampleFiles shown problem ∧
      (ofArguments sampleFiles [] ["--trace", "run", "p"]).output =
        Text.printed shown ++ ("\x1b[31m" ++ problem.told ++ "\x1b[0m" ++ "\n") := by
  obtain ⟨-, succeeds, -, fails, -⟩ := decided_by_table sampleFiles [] ["--trace", "run", "p"]
  have asked : Command.Asked ["--trace", "run", "p"] (.run "p" true) :=
    .run (by decide) (by decide)
  have hno : ¬(Command.run "p" true).Succeeds sampleFiles := fun hs =>
    absurd (succeeds.2 ⟨_, asked, hs⟩) (by decide +kernel)
  obtain ⟨shown, problem, hf, hshown⟩ := fails _ asked hno
  exact ⟨asked, hno, shown, problem, hf, hshown.trans (by rw [if_neg (by decide)])⟩

/-- Debugging leaves out the error. -/
example : ofArguments (fun _ => .ok [0x78, 0x3b]) [] ["run", "--debug", "p"] =
    ⟨1, "Старт программы...\n"⟩ := by
  decide +kernel

end Outcome

end Rech
