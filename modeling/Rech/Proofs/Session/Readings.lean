import Rech.Proofs.Grammar.Source
import Rech.Proofs.Session.Turns

/-!
# Readings of a snippet

A program ends in a semicolon or a brace and an expression in neither, so no
tokens are both, and a text is read in one way. It is cut into no tokens, or
it is a program, or an expression, or neither, and then the error is that of
the program. A text that cannot be read prints nothing and leaves the store.
-/

namespace Rech

-- ---------------------------------------------------------------------------
-- What phrases end in
-- ---------------------------------------------------------------------------

def Token.EndsIn (kinds : List Token.Kind) (w : List Token) : Prop :=
  ∃ front last, w = front ++ [last] ∧ last.kind ∈ kinds

namespace Token.EndsIn

variable {kinds others : List Token.Kind}

theorem concat {last : Token} (h : last.kind ∈ kinds) (front : List Token) :
    EndsIn kinds (front ++ [last]) :=
  ⟨front, last, rfl, h⟩

theorem append (h : EndsIn kinds w) (v : List Token) : EndsIn kinds (v ++ w) := by
  obtain ⟨front, last, rfl, hkind⟩ := h
  exact ⟨v ++ front, last, by simp, hkind⟩

theorem cons (h : EndsIn kinds w) (token : Token) : EndsIn kinds (token :: w) :=
  h.append [token]

theorem exists_kind (h : EndsIn kinds w) (h' : EndsIn others w) :
    ∃ kind ∈ kinds, kind ∈ others := by
  obtain ⟨front, last, rfl, hkind⟩ := h
  obtain ⟨front', last', heq, hkind'⟩ := h'
  obtain ⟨-, hlast⟩ := List.append_inj' heq rfl
  obtain rfl := List.head_eq_of_cons_eq hlast
  exact ⟨_, hkind, hkind'⟩

end Token.EndsIn

def Token.Kind.statementEnds : List Token.Kind := [.semicolon, .rightBrace]

def Token.Kind.expressionEnds : List Token.Kind :=
  [.number, .string, .nullWord, .identifier, .rightParen]

open Token (EndsIn)
open Token.Kind (statementEnds expressionEnds)

variable {anchor : Token → Option Int}

theorem Expr.Derives.endsIn (h : Expr.Derives anchor levels w e) : EndsIn expressionEnds w := by
  induction h with
  | number kind | string kind | null kind | identifier kind =>
    exact .concat (by simp [kind, expressionEnds]) []
  | negate _ _ _ ih => exact ih.cons _
  | parenthesized _ _ right => exact (EndsIn.concat (by simp [right, expressionEnds]) _).cons _
  | single _ ih => exact ih
  | applied _ _ _ _ ih => exact (ih.cons _).append _

theorem Token.endsIn_of_semicolon {closing : Token} (ended : closing.kind = .semicolon)
    (front : List Token) : EndsIn statementEnds (front ++ [closing]) :=
  .concat (by simp [ended, statementEnds]) front

theorem Block.Derives.endsIn (h : Block.Derives anchor w b) : EndsIn statementEnds w := by
  cases h with
  | mk _ _ right => exact (EndsIn.concat (by simp [right, statementEnds]) _).cons _

mutual
theorem Choice.Derives.endsIn : Choice.Derives anchor w c → EndsIn statementEnds w
  | .mk _ _ _ _ body otherwise =>
    ((((otherwise.endsIn body.endsIn).cons _).append _).cons _).cons _

theorem Otherwise.Derives.endsIn (body : EndsIn statementEnds v) :
    Otherwise.Derives anchor w o → EndsIn statementEnds (v ++ w)
  | .nothing => by simpa using body
  | .block _ chosen => (chosen.endsIn.cons _).append _
  | .choice _ chosen => (chosen.endsIn.cons _).append _
end

theorem Stmt.Derives.endsIn (h : Stmt.Derives anchor w s) : EndsIn statementEnds w := by
  cases h with
  | block inner => exact inner.endsIn
  | choice first => exact first.endsIn
  | print _ _ ended | returnValue _ _ ended | declaration _ _ ended =>
    exact (Token.endsIn_of_semicolon ended _).cons _
  | returnNothing _ ended => exact Token.endsIn_of_semicolon ended [_]
  | assignment _ ended | expression _ ended => exact Token.endsIn_of_semicolon ended _

theorem Stmt.DerivesAll.endsIn (h : Stmt.DerivesAll anchor w body) :
    w = [] ∨ EndsIn statementEnds w := by
  induction body generalizing w with
  | nil =>
    cases h
    exact .inl rfl
  | cons s rest ih =>
    cases h with
    | cons first others =>
      rcases ih others with rfl | hends
      · exact .inr (by simpa using first.endsIn)
      · exact .inr (hends.append _)

/-- No tokens are a program and an expression. -/
theorem Program.Derives.not_derives (h : Program.Derives anchor w program) (e : Expr) :
    ¬Expr.Derives anchor levels w e := by
  intro hexpression
  have hends := hexpression.endsIn
  rcases Stmt.DerivesAll.endsIn h with rfl | hends'
  · obtain ⟨front, last, hempty, -⟩ := hends
    simp at hempty
  · obtain ⟨kind, hkind, hkind'⟩ := hends.exists_kind hends'
    revert kind
    decide

-- ---------------------------------------------------------------------------
-- Reading tokens
-- ---------------------------------------------------------------------------

theorem Parsing.exists_runOn_of_ofTokens {parsing : Parsing α}
    (h : parsing.ofTokens tokens = .ok value) : ∃ stream after, stream.ahead = tokens ∧
      stream.Ended ∧ parsing.runOn stream = (.ok value, after) := by
  obtain ⟨stream, hstream, hahead, hended⟩ :=
    TokenStream.exists_ofTokens (endsList_of_ofTokens h)
  rw [ofTokens_eq hstream] at h
  rcases hrun : parsing.runOn stream with ⟨result, after⟩
  rw [hrun] at h
  obtain rfl : result = .ok value := h
  exact ⟨stream, after, hahead, hended, hrun⟩

theorem Parsing.derives_wholeExpression (h : wholeExpression.ofTokens tokens = .ok e) :
    Expr.Derives Token.line Level.all (Token.beforeEnd tokens) e := by
  obtain ⟨stream, after, rfl, hended, hrun⟩ := exists_runOn_of_ofTokens h
  simp only [wholeExpression, atEnd, runOn_bind_ok, runOn_peek_ok, runOn_pure_ok] at hrun
  obtain ⟨value, rear, hvalue, _, _, ⟨_, _, ⟨rfl, rfl⟩, rfl, rfl⟩, hrun⟩ := hrun
  obtain ⟨w, passed, derives⟩ := sound_expression hended hvalue
  split at hrun
  next hend =>
    obtain ⟨rfl, rfl⟩ := runOn_pure_ok.1 hrun
    rwa [passed.beforeEnd_eq derives.noEnd (by simpa using hend)]
  next => exact (by simp [unexpected, runOn_bind] at hrun)

theorem Program.wholeExpression_ne_ok (h : Program.ofTokens tokens = .ok program) (e : Expr) :
    Parsing.wholeExpression.ofTokens tokens ≠ .ok e := by
  intro hexpression
  have hprogram := (Program.ofTokens_eq_ok_iff (Parsing.endsList_of_ofTokens h)).1 h
  exact hprogram.not_derives e (Parsing.derives_wholeExpression hexpression)

-- ---------------------------------------------------------------------------
-- What a snippet is and does
-- ---------------------------------------------------------------------------

namespace Snippet

/-- The ways to read a text. -/
inductive Reads (source : List Char) : Except SyntaxError Snippet → Prop
  | broken (cut : Token.ofSource source = .error error) : Reads source (.error error)
  | program (cut : Token.ofSource source = .ok tokens)
      (reads : Program.ofTokens tokens = .ok whole) : Reads source (.ok (.program whole))
  | expression (cut : Token.ofSource source = .ok tokens)
      (reads : Parsing.wholeExpression.ofTokens tokens = .ok value) :
      Reads source (.ok (.expression value))
  | neither (cut : Token.ofSource source = .ok tokens)
      (noProgram : Program.ofTokens tokens = .error error)
      (noExpression : ∀ value, Parsing.wholeExpression.ofTokens tokens ≠ .ok value) :
      Reads source (.error error)

theorem ofTokens_of_program (h : Program.ofTokens tokens = .ok whole) :
    ofTokens tokens = .ok (.program whole) := by
  rw [ofTokens, h]

/-- What is read as an expression is no program, so the program is not tried in vain. -/
theorem ofTokens_of_expression (h : Parsing.wholeExpression.ofTokens tokens = .ok value) :
    ofTokens tokens = .ok (.expression value) := by
  rw [ofTokens]
  cases hprogram : Program.ofTokens tokens with
  | ok whole => exact absurd h (Program.wholeExpression_ne_ok hprogram value)
  | error error => simp only [h]

theorem ofTokens_of_neither (h : Program.ofTokens tokens = .error error)
    (h' : ∀ value, Parsing.wholeExpression.ofTokens tokens ≠ .ok value) :
    ofTokens tokens = .error error := by
  rw [ofTokens, h]
  cases hexpression : Parsing.wholeExpression.ofTokens tokens with
  | ok value => exact absurd hexpression (h' value)
  | error other => rfl

theorem Reads.ofSource_eq (h : Reads source reading) : ofSource source = reading := by
  cases h with
  | broken cut => rw [ofSource, cut]; rfl
  | program cut reads => rw [ofSource, cut]; exact ofTokens_of_program reads
  | expression cut reads => rw [ofSource, cut]; exact ofTokens_of_expression reads
  | neither cut noProgram noExpression =>
    rw [ofSource, cut]
    exact ofTokens_of_neither noProgram noExpression

theorem reads_ofSource (source : List Char) : Reads source (ofSource source) := by
  suffices ∃ reading, Reads source reading by
    obtain ⟨reading, h⟩ := this
    rwa [h.ofSource_eq]
  cases cut : Token.ofSource source with
  | error error => exact ⟨_, .broken cut⟩
  | ok tokens =>
    cases hprogram : Program.ofTokens tokens with
    | ok whole => exact ⟨_, .program cut hprogram⟩
    | error error =>
      cases hexpression : Parsing.wholeExpression.ofTokens tokens with
      | ok value => exact ⟨_, .expression cut hexpression⟩
      | error other => exact ⟨_, .neither cut hprogram (by simp [hexpression])⟩

end Snippet

def Completion.told : Completion → List String
  | .returned (some value) => ["Результат: " ++ value.display]
  | _ => []

/-- What a snippet does on a store, by what it is read as. -/
inductive Snippet.Does (trace : Bool) (store : Store) :
    Except SyntaxError Snippet → Report StepResult → Prop
  | unreadable : Does trace store (.error error) ⟨[], store, .error (.unreadable error)⟩
  | completed (ends : (whole.exec trace store).outcome = .ok completion) :
      Does trace store (.ok (.program whole))
        ⟨(whole.exec trace store).events.map Event.text ++ completion.told,
          (whole.exec trace store).store, .ok .shown⟩
  | stopped (fails : (whole.exec trace store).outcome = .error error) :
      Does trace store (.ok (.program whole))
        ⟨(whole.exec trace store).events.map Event.text, (whole.exec trace store).store,
          .error (.stopped error)⟩
  | shown (evaluates : e.eval store = .ok value) :
      Does trace store (.ok (.expression e)) ⟨[value.display], store, .ok .shown⟩
  | valueless (fails : e.eval store = .error cause) :
      Does trace store (.ok (.expression e)) ⟨[], store, .error (.stopped ⟨cause, none⟩)⟩

theorem Completion.told_eq (completion : Completion) :
    (completion.value?.map fun value => (Event.result value).text).toList = completion.told := by
  rcases completion with _ | _ | value <;> rfl

theorem Snippet.does_program (trace : Bool) (store : Store) (whole : Program) :
    Does trace store (.ok (.program whole))
      (((program whole).report trace store).map fun _ => .shown) := by
  cases houtcome : (whole.exec trace store).outcome with
  | ok completion =>
    have hdoes := Does.completed houtcome
    rw [← Completion.told_eq] at hdoes
    simpa [report, Report.map, Report.telling, Run.report, houtcome, Except.map,
      Except.mapError] using hdoes
  | error error =>
    simpa [report, Report.map, Report.telling, Run.report, houtcome, Except.map,
      Except.mapError] using Does.stopped houtcome

theorem Snippet.does_expression (trace : Bool) (store : Store) (e : Expr) :
    Does trace store (.ok (.expression e))
      (((expression e).report trace store).map fun _ => .shown) := by
  rw [report, Expr.report]
  cases heval : e.eval store with
  | ok value => exact .shown heval
  | error cause => exact .valueless heval

namespace Step

theorem does_snippet (trace : Bool) (store : Store) (source : List Char) :
    Snippet.Does trace store (Snippet.ofSource source)
      ((Step.snippet source).perform trace store) := by
  rw [perform]
  cases Snippet.ofSource source with
  | error error => exact .unreadable
  | ok reading =>
    cases reading with
    | program whole => exact Snippet.does_program trace store whole
    | expression e => exact Snippet.does_expression trace store e

end Step

theorem Snippet.Does.unchanged {reported : Report StepResult}
    (h : Does trace store reading reported)
    (herror : reported.outcome = .error (.unreadable error)) :
    reported.lines = [] ∧ reported.store = store := by
  cases h with
  | unreadable => exact ⟨rfl, rfl⟩
  | completed | stopped | shown | valueless => cases herror

/-- No tokens are read both as a program and as a single expression. So a text is
read in one way, and a snippet does what it is read as: it fails as it is cut or
as a program fails to be read, or the program is executed, or the value of the
expression is shown, which leaves the store. What cannot be read changes nothing
and shows nothing. -/
theorem Step.snippet_one_reading :
    (∀ tokens program value, Program.ofTokens tokens = .ok program →
      Parsing.wholeExpression.ofTokens tokens ≠ .ok value) ∧
    ∀ source, ∃ reading, Snippet.Reads source reading ∧
      (∀ other, Snippet.Reads source other → other = reading) ∧
      ∀ trace store, Snippet.Does trace store reading
          ((Step.snippet source).perform trace store) ∧
        ∀ error, ((Step.snippet source).perform trace store).outcome =
            .error (.unreadable error) →
          ((Step.snippet source).perform trace store).lines = [] ∧
            ((Step.snippet source).perform trace store).store = store := by
  refine ⟨fun tokens program value h => Program.wholeExpression_ne_ok h value, ?_⟩
  intro source
  refine ⟨_, Snippet.reads_ofSource source, fun other hother => hother.ofSource_eq.symm, ?_⟩
  intro trace store
  have hdoes := does_snippet trace store source
  exact ⟨hdoes, fun error herror => hdoes.unchanged herror⟩

/-- A negated name without a semicolon is an expression, and with two it is
nothing: the error is that of the program, behind the first semicolon. -/
theorem Step.snippet_one_reading_negated :
    let name : Expr := .negate (some 1) (.identifier ⟨some 1, "a"⟩)
    let error : SyntaxError := ⟨.unexpected ";", some ⟨1, 4⟩⟩
    let twice := (Step.snippet "-a;;".toList).perform false ∅
    let ended : List Token := [⟨.math, "-", ⟨1, 1⟩⟩, ⟨.identifier, "a", ⟨1, 2⟩⟩,
      ⟨.semicolon, ";", ⟨1, 3⟩⟩, ⟨.endOfFile, "\x00", ⟨1, 4⟩⟩]
    (Program.ofTokens ended = .ok ⟨[.expression name]⟩ ∧
      Parsing.wholeExpression.ofTokens ended ≠ .ok name) ∧
    (Snippet.Reads "-a".toList (.ok (.expression name)) ∧
      Snippet.Does false ∅ (.ok (.expression name))
        ((Step.snippet "-a".toList).perform false ∅)) ∧
    (twice.outcome = .error (.unreadable error) ∧ twice.lines = [] ∧ twice.store = ∅) := by
  intro name error twice ended
  obtain ⟨hdisjoint, hreading⟩ := snippet_one_reading
  have hname : Token.ofSource "-a".toList = .ok [⟨.math, "-", ⟨1, 1⟩⟩,
      ⟨.identifier, "a", ⟨1, 2⟩⟩, ⟨.endOfFile, "\x00", ⟨1, 3⟩⟩] := by
    decide +kernel
  have htwice : Token.ofSource "-a;;".toList = .ok [⟨.math, "-", ⟨1, 1⟩⟩,
      ⟨.identifier, "a", ⟨1, 2⟩⟩, ⟨.semicolon, ";", ⟨1, 3⟩⟩, ⟨.semicolon, ";", ⟨1, 4⟩⟩,
      ⟨.endOfFile, "\x00", ⟨1, 5⟩⟩] := by
    decide +kernel
  have hexpression : Snippet.Reads "-a".toList (.ok (.expression name)) := .expression hname rfl
  have hneither : Snippet.Reads "-a;;".toList (.error error) := .neither htwice rfl nofun
  obtain ⟨one, -, hone, hdoes⟩ := hreading "-a".toList
  obtain ⟨other, -, hother, hfails⟩ := hreading "-a;;".toList
  obtain rfl := hone _ hexpression
  obtain rfl := hother _ hneither
  obtain ⟨does, unchanged⟩ := hfails false ∅
  have houtcome : twice.outcome = .error (.unreadable error) := by
    simp only [twice, perform, hneither.ofSource_eq]
    rfl
  have hprogram : Program.ofTokens ended = .ok ⟨[.expression name]⟩ := rfl
  exact ⟨⟨hprogram, hdisjoint ended _ name hprogram⟩, ⟨hexpression, (hdoes false ∅).1⟩,
    houtcome, unchanged error houtcome⟩

end Rech
