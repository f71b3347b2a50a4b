import Rech.Proofs.Session.BraceBalance
import Rech.Proofs.Session.Turns

/-!
# How a console groups its lines

Between snippets a console skips blank lines and leaves at a quit word. Any
other line begins a snippet, which takes lines until as many braces are closed
as are opened. So the lines that are read fall into skipped lines, submitted
chunks and perhaps a last chunk that stays unfinished. How they do depends on
the lines alone, and each submitted chunk is run once, on the store that the
one before it left.
-/

namespace Rech.Console

abbrev Line := List Char

def isQuit (line : Line) : Bool :=
  [":q", ":quit", "выход"].contains (Text.trim (String.ofList line))

def isBlank (line : Line) : Bool := (Text.trim (String.ofList line)).isEmpty

theorem isQuit_of_isBlank (h : isBlank line = true) : isQuit line = false := by
  rw [isBlank, String.isEmpty_iff] at h
  rw [isQuit, h]
  decide

/-- A line that is neither skipped between snippets nor ends the session there. -/
structure IsText (line : Line) : Prop where
  notBlank : isBlank line = false
  notQuit : isQuit line = false

-- ---------------------------------------------------------------------------
-- Pieces
-- ---------------------------------------------------------------------------

def Begun (part : List Line) : Prop :=
  ∃ line more, part = line :: more ∧ IsText line

/-- Braces are open behind every line of a chunk but the last one. -/
structure IsChunk (chunk : List Line) : Prop where
  begun : Begun chunk
  opened : ∀ part, part <+: chunk → part ≠ [] → part ≠ chunk → 0 < braceDepth part
  closed : braceDepth chunk ≤ 0

/-- Braces are open behind every line. -/
structure IsUnfinished (chunk : List Line) : Prop where
  begun : Begun chunk
  opened : ∀ part, part <+: chunk → part ≠ [] → 0 < braceDepth part

inductive Piece where
  | skipped (line : Line)
  | submitted (chunk : List Line)
  | unfinished (chunk : List Line)

namespace Piece

def lines : Piece → List Line
  | skipped line => [line]
  | submitted chunk | unfinished chunk => chunk

def step? : Piece → Option Step
  | submitted chunk => some (.snippet (chunk.flatMap (· ++ ['\n'])))
  | _ => none

end Piece

/-- How lines fall into pieces, and which lines are not read. -/
inductive Grouped : List Line → List Piece → List Line → Prop
  | done : Grouped [] [] []
  | quit (word : isQuit line = true) : Grouped (line :: rest) [] (line :: rest)
  | skipped (blank : isBlank line = true) (others : Grouped rest pieces unread) :
      Grouped (line :: rest) (.skipped line :: pieces) unread
  | submitted (chunk : IsChunk lines) (others : Grouped rest pieces unread) :
      Grouped (lines ++ rest) (.submitted lines :: pieces) unread
  | unfinished (chunk : IsUnfinished lines) : Grouped lines [.unfinished lines] []

theorem Grouped.lines_eq (h : Grouped lines pieces unread) :
    lines = pieces.flatMap Piece.lines ++ unread := by
  induction h with
  | done | quit => rfl
  | skipped _ _ ih => simp [Piece.lines, ← ih]
  | submitted _ _ ih => simp [Piece.lines, ← ih]
  | unfinished => simp [Piece.lines]

theorem Grouped.unread_cases (h : Grouped lines pieces unread) :
    unread = [] ∨ ∃ line rest, unread = line :: rest ∧ isQuit line = true := by
  induction h with
  | done => exact .inl rfl
  | quit word => exact .inr ⟨_, _, rfl, word⟩
  | skipped _ _ ih | submitted _ _ ih => exact ih
  | unfinished => exact .inl rfl

end Console

-- ---------------------------------------------------------------------------
-- What is printed of an error
-- ---------------------------------------------------------------------------

def SyntaxError.told (error : SyntaxError) : String :=
  "Синтаксическая ошибка: " ++ error.cause.message ++
    match error.place with
    | none => ""
    | some place =>
      " (строка " ++ toString place.line ++ ", позиция " ++ toString place.column ++ ")"

def EvalError.told (error : EvalError) : String :=
  "Ошибка выполнения: " ++ error.cause.message ++
    match error.line with
    | none => ""
    | some line => "\n" ++ "  в строке " ++ toString line

def Failure.told : Failure → String
  | .unreadable error => error.told
  | .stopped error => error.told

theorem Failure.text_eq_told (failure : Failure) : failure.text "" = failure.told := by
  rcases failure with ⟨cause, place⟩ | ⟨cause, line⟩
  · unfold text told SyntaxError.told SyntaxError.text
    cases place <;> simp only [Option.map_none, Option.map_some, Text.numberOrNone, toString,
      String.append_assoc, String.empty_append, String.append_empty]
  · unfold text told EvalError.told EvalError.text
    cases line <;> simp only [toString, String.append_assoc, String.empty_append,
      String.append_empty]

theorem Console.complaint_eq (debug : Bool) (text : String) :
    complaint debug text = if debug then "" else "\x1b[31m" ++ text ++ "\x1b[0m" ++ "\n" := by
  simp only [complaint, Text.red, toString, String.append_assoc]

/-- What a console prints as it runs a snippet: its lines, and an error in red unless
errors are hidden. -/
def Turn.output (trace debug : Bool) (turn : Turn) : String :=
  (turn.report trace).printed ++
    match (turn.report trace).outcome with
    | .ok _ => ""
    | .error failure => if debug then "" else "\x1b[31m" ++ failure.told ++ "\x1b[0m" ++ "\n"

-- ---------------------------------------------------------------------------
-- Reading one line
-- ---------------------------------------------------------------------------

namespace Console

def holding (store : Store) (chunk : List Line) : Console := ⟨store, chunk, braceDepth chunk⟩

theorem start_eq : start = holding ∅ [] := rfl

def take (console : Console) (line : Line) : Console :=
  ⟨console.store, console.pending ++ [line], console.depth + braceBalance false line⟩

@[simp] theorem pending_holding (store : Store) (chunk : List Line) :
    (holding store chunk).pending = chunk := rfl

@[simp] theorem depth_holding (store : Store) (chunk : List Line) :
    (holding store chunk).depth = braceDepth chunk := rfl

@[simp] theorem prompt_holding (store : Store) (chunk : List Line) :
    (holding store chunk).prompt = if chunk.isEmpty then "rech> " else "...> " := rfl

@[simp] theorem take_holding (store : Store) (chunk : List Line) (line : Line) :
    (holding store chunk).take line = holding store (chunk ++ [line]) := by
  simp [take, holding, braceDepth_concat]

def turn (console : Console) : Turn :=
  ⟨.snippet (console.pending.flatMap (· ++ ['\n'])), console.store⟩

/-- The snippet that is run when a line is read. -/
def submission? (console : Console) (line : Line) : Option Turn :=
  if console.pending.isEmpty && (isQuit line || isBlank line) then none
  else if 0 < (console.take line).depth then none
  else some (console.take line).turn

def calls (trace debug : Bool) (console : Console) : List Line → List Turn
  | [] => []
  | line :: others =>
    (console.submission? line).toList ++
      match console.read trace debug line with
      | .leave => []
      | .stay _ next => next.calls trace debug others

section
variable (trace debug : Bool) (store : Store)

theorem submit_eq (console : Console) : console.submit trace debug =
    .stay (console.turn.output trace debug) (holding (console.turn.report trace).store []) := by
  simp only [submit, Turn.output, complaint_eq, Failure.text_eq_told]
  rfl

theorem read_eq (console : Console) (line : Line) : console.read trace debug line =
    if console.pending.isEmpty && isQuit line then .leave
    else if console.pending.isEmpty && isBlank line then .stay "" console
    else if 0 < (console.take line).depth then .stay "" (console.take line)
    else (console.take line).submit trace debug := rfl

theorem read_submission (console : Console) (line : Line) :
    match console.submission? line with
    | some turn => console.read trace debug line =
        .stay (turn.output trace debug) ⟨(turn.report trace).store, [], 0⟩
    | none => console.read trace debug line = .leave ∨
        ∃ next, console.read trace debug line = .stay "" next ∧ next.store = console.store := by
  rw [submission?, read_eq]
  by_cases quits : (console.pending.isEmpty && isQuit line) = true
  · simp_all
  by_cases skips : (console.pending.isEmpty && isBlank line) = true
  · simp_all
  · have takes : (console.pending.isEmpty && (isQuit line || isBlank line)) = false := by
      simp_all [Bool.and_or_distrib_left]
    rw [if_neg quits, if_neg skips, takes, if_neg Bool.false_ne_true]
    by_cases opened : 0 < (console.take line).depth
    · rw [if_pos opened, if_pos opened]
      exact .inr ⟨_, rfl, rfl⟩
    · rw [if_neg opened, if_neg opened, submit_eq]
      rfl

theorem read_quit (word : isQuit line = true) :
    (holding store []).read trace debug line = .leave ∧
      (holding store []).submission? line = none := by
  simp [read_eq, submission?, word]

theorem read_blank (blank : isBlank line = true) :
    (holding store []).read trace debug line = .stay "" (holding store []) ∧
      (holding store []).submission? line = none := by
  simp [read_eq, submission?, blank, isQuit_of_isBlank blank]

variable {chunk : List Line}

theorem read_open (takes : chunk = [] → IsText line) (opened : 0 < braceDepth (chunk ++ [line])) :
    (holding store chunk).read trace debug line = .stay "" (holding store (chunk ++ [line])) ∧
      (holding store chunk).submission? line = none := by
  by_cases between : chunk = []
  · simp [read_eq, submission?, opened, (takes between).notBlank, (takes between).notQuit]
  · simp [read_eq, submission?, opened, between]

theorem read_closed (takes : chunk = [] → IsText line)
    (closed : braceDepth (chunk ++ [line]) ≤ 0) :
    (holding store chunk).read trace debug line =
        (holding store (chunk ++ [line])).submit trace debug ∧
      (holding store chunk).submission? line = some (holding store (chunk ++ [line])).turn := by
  have hclosed : ¬0 < braceDepth (chunk ++ [line]) := by omega
  by_cases between : chunk = []
  · simp [read_eq, submission?, hclosed, (takes between).notBlank, (takes between).notQuit]
  · simp [read_eq, submission?, hclosed, between]

end

-- ---------------------------------------------------------------------------
-- What is printed of pieces
-- ---------------------------------------------------------------------------

def prompts : List Line → String
  | [] => ""
  | _ :: more => "rech> " ++ String.join (more.map fun _ => "...> ")

@[simp] theorem prompts_nil : prompts [] = "" := rfl

theorem prompts_concat (chunk : List Line) (line : Line) (store : Store) :
    prompts (chunk ++ [line]) = prompts chunk ++ (holding store chunk).prompt := by
  cases chunk with
  | nil => simp [prompts]
  | cons first more => simp [prompts, String.append_assoc]

/-- What is printed while lines are read, by the pieces that they fall into. The
session is ended by a quit word, which has a prompt, or by the end of the lines,
which ends the line of the last prompt. -/
def told (trace debug quits : Bool) : Store → List Piece → String
  | _, [] => "rech> " ++ if quits then "" else "\n"
  | store, .skipped _ :: others => "rech> " ++ told trace debug quits store others
  | store, .submitted chunk :: others =>
    let turn := (holding store chunk).turn
    prompts chunk ++ (turn.output trace debug ++
      told trace debug quits (turn.report trace).store others)
  | _, .unfinished chunk :: _ => prompts chunk ++ "...> " ++ "\n"

/-- What a console does with lines, behind those that it holds, is what is told of
the pieces, whose snippets are run in turn. -/
structure Conducts (chunk lines : List Line) (pieces : List Piece) (unread : List Line) :
    Prop where
  calls_eq : ∀ trace debug store, (holding store chunk).calls trace debug lines =
    Step.turns trace store (pieces.filterMap Piece.step?)
  told_eq : ∀ trace debug store,
    prompts chunk ++ (holding store chunk).converse trace debug lines =
      told trace debug (!unread.isEmpty) store pieces

namespace Conducts

theorem done : Conducts [] [] [] [] where
  calls_eq _ _ _ := rfl
  told_eq _ _ _ := by simp [converse, told]

theorem unfinished (h : IsUnfinished chunk) : Conducts chunk [] [.unfinished chunk] [] where
  calls_eq _ _ _ := rfl
  told_eq trace debug store := by
    obtain ⟨line, more, rfl, -⟩ := h.begun
    simp [converse, told, String.append_assoc]

theorem quit (word : isQuit line = true) : Conducts [] (line :: rest) [] (line :: rest) where
  calls_eq trace debug store := by
    obtain ⟨hread, hsubmission⟩ := read_quit trace debug store word
    simp [calls, hread, hsubmission, Step.turns]
  told_eq trace debug store := by
    obtain ⟨hread, -⟩ := read_quit trace debug store word
    simp [converse, hread, told]

theorem skipped (blank : isBlank line = true) (h : Conducts [] rest pieces unread) :
    Conducts [] (line :: rest) (.skipped line :: pieces) unread where
  calls_eq trace debug store := by
    obtain ⟨hread, hsubmission⟩ := read_blank trace debug store blank
    simp [calls, hread, hsubmission, h.calls_eq, List.filterMap_cons, Piece.step?]
  told_eq trace debug store := by
    obtain ⟨hread, -⟩ := read_blank trace debug store blank
    simp [converse, hread, told, ← h.told_eq]

variable {chunk : List Line}

theorem take (takes : chunk = [] → IsText line) (opened : 0 < braceDepth (chunk ++ [line]))
    (h : Conducts (chunk ++ [line]) rest pieces unread) :
    Conducts chunk (line :: rest) pieces unread where
  calls_eq trace debug store := by
    obtain ⟨hread, hsubmission⟩ := read_open trace debug store takes opened
    simp [calls, hread, hsubmission, h.calls_eq]
  told_eq trace debug store := by
    obtain ⟨hread, -⟩ := read_open trace debug store takes opened
    simp [converse, hread, ← h.told_eq, prompts_concat chunk line store, String.append_assoc]

theorem submitted (takes : chunk = [] → IsText line) (closed : braceDepth (chunk ++ [line]) ≤ 0)
    (h : Conducts [] rest pieces unread) :
    Conducts chunk (line :: rest) (.submitted (chunk ++ [line]) :: pieces) unread where
  calls_eq trace debug store := by
    obtain ⟨hread, hsubmission⟩ := read_closed trace debug store takes closed
    have hstep : Piece.step? (.submitted (chunk ++ [line])) =
        some (holding store (chunk ++ [line])).turn.step := rfl
    simp only [calls, hread, hsubmission, submit_eq, h.calls_eq, List.filterMap_cons_some hstep]
    rfl
  told_eq trace debug store := by
    obtain ⟨hread, -⟩ := read_closed trace debug store takes closed
    simp [converse, hread, submit_eq, told, ← h.told_eq, prompts_concat chunk line store,
      String.append_assoc]

end Conducts

-- ---------------------------------------------------------------------------
-- The pieces of all lines
-- ---------------------------------------------------------------------------

theorem forall_prefix_concat {P : List Line → Prop} {chunk : List Line} :
    (∀ part, part <+: chunk ++ [line] → part ≠ [] → part ≠ chunk ++ [line] → P part) ↔
      ∀ part, part <+: chunk → part ≠ [] → P part := by
  simp only [List.prefix_concat_iff]
  constructor
  · intro h part hpart
    refine fun hne => h part (.inr hpart) hne ?_
    rintro rfl
    exact absurd hpart.length_le (by simp)
  · rintro h part (rfl | hpart) hne hwhole
    · exact absurd rfl hwhole
    · exact h part hpart hne

/-- What a console holds: nothing, or a chunk that is not complete. -/
def Held (chunk : List Line) : Prop := chunk = [] ∨ IsUnfinished chunk

theorem held_nil : Held [] := .inl rfl

theorem Held.begun (h : Held chunk) (takes : chunk = [] → IsText line) :
    Begun (chunk ++ [line]) := by
  rcases h with rfl | h
  · exact ⟨line, [], rfl, takes rfl⟩
  · obtain ⟨first, more, rfl, hfirst⟩ := h.begun
    exact ⟨first, more ++ [line], rfl, hfirst⟩

theorem Held.opened (h : Held chunk) :
    ∀ part, part <+: chunk → part ≠ [] → 0 < braceDepth part := by
  rcases h with rfl | h
  · intro part hpart hne
    exact absurd (List.prefix_nil.1 hpart) hne
  · exact h.opened

theorem Held.isChunk (h : Held chunk) (takes : chunk = [] → IsText line)
    (closed : braceDepth (chunk ++ [line]) ≤ 0) : IsChunk (chunk ++ [line]) :=
  ⟨h.begun takes, forall_prefix_concat.2 h.opened, closed⟩

theorem Held.isUnfinished (h : Held chunk) (takes : chunk = [] → IsText line)
    (opened : 0 < braceDepth (chunk ++ [line])) : IsUnfinished (chunk ++ [line]) := by
  refine ⟨h.begun takes, fun part hpart hne => ?_⟩
  rcases List.prefix_concat_iff.1 hpart with rfl | hpart
  · exact opened
  · exact h.opened part hpart hne

/-- The lines fall into pieces as a console reads them on, from whatever it holds. -/
theorem exists_grouped (lines : List Line) (h : Held chunk) : ∃ pieces unread,
    Grouped (chunk ++ lines) pieces unread ∧ Conducts chunk lines pieces unread := by
  induction lines generalizing chunk with
  | nil =>
    rcases h with rfl | h
    · exact ⟨[], [], .done, .done⟩
    · exact ⟨_, [], by simpa using Grouped.unfinished h, .unfinished h⟩
  | cons line rest ih =>
    -- The line is text: it leaves the chunk open, or completes it.
    have go_on (takes : chunk = [] → IsText line) : ∃ pieces unread,
        Grouped (chunk ++ line :: rest) pieces unread ∧
          Conducts chunk (line :: rest) pieces unread := by
      by_cases opened : 0 < braceDepth (chunk ++ [line])
      · obtain ⟨pieces, unread, hgrouped, hconducts⟩ := ih (.inr (h.isUnfinished takes opened))
        exact ⟨pieces, unread, by simpa using hgrouped, hconducts.take takes opened⟩
      · have closed : braceDepth (chunk ++ [line]) ≤ 0 := by omega
        obtain ⟨pieces, unread, hgrouped, hconducts⟩ := ih held_nil
        have hwhole := Grouped.submitted (h.isChunk takes closed) hgrouped
        exact ⟨_, unread, by simpa using hwhole, hconducts.submitted takes closed⟩
    rcases h with rfl | h
    · by_cases word : isQuit line = true
      · exact ⟨[], _, .quit word, .quit word⟩
      by_cases blank : isBlank line = true
      · obtain ⟨pieces, unread, hgrouped, hconducts⟩ := ih held_nil
        exact ⟨_, unread, .skipped blank hgrouped, hconducts.skipped blank⟩
      · exact go_on fun _ => ⟨by simpa using blank, by simpa using word⟩
    · obtain ⟨first, more, hchunk, -⟩ := h.begun
      exact go_on fun hnil => absurd (hchunk.symm.trans hnil) (by simp)

/-- A console loses, doubles and reorders no line. The lines up to a quit word
between snippets fall into skipped lines, submitted chunks and perhaps a last
chunk that stays unfinished, whatever is printed and whatever fails. The chunks
are run in turn, each once, on the store that the one before it left. What is
printed is the prompts and what the chunks print. -/
theorem lines_grouped (lines : List Line) : ∃ pieces unread,
    Grouped lines pieces unread ∧ lines = pieces.flatMap Piece.lines ++ unread ∧
    (unread = [] ∨ ∃ line rest, unread = line :: rest ∧ isQuit line = true) ∧
    ∀ trace debug,
      start.calls trace debug lines = Step.turns trace ∅ (pieces.filterMap Piece.step?) ∧
      start.converse trace debug lines = told trace debug (!unread.isEmpty) ∅ pieces ∧
      ∀ (console : Console) (line : Line),
        match console.submission? line with
        | some turn => console.read trace debug line =
            .stay (turn.output trace debug) ⟨(turn.report trace).store, [], 0⟩
        | none => console.read trace debug line = .leave ∨
            ∃ next, console.read trace debug line = .stay "" next ∧
              next.store = console.store := by
  obtain ⟨pieces, unread, hgrouped, hconducts⟩ := exists_grouped lines held_nil
  refine ⟨pieces, unread, hgrouped, hgrouped.lines_eq, hgrouped.unread_cases, ?_⟩
  intro trace debug
  have htold := hconducts.told_eq trace debug ∅
  exact ⟨hconducts.calls_eq trace debug ∅, by simpa [start_eq] using htold,
    read_submission trace debug⟩

end Rech.Console
