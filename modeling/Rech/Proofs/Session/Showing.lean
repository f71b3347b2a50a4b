import Rech.Proofs.Grammar.Printing
import Rech.Proofs.Run.Lines
import Rech.Proofs.Session.Readings
import Rech.Proofs.Token.Phrases

/-!
# Three ways to show an expression

The value of an expression is seen when the expression is a snippet by itself,
when it is printed and when it is returned. A word before its text and a
semicolon on the line behind it make it a statement on the first line, so the
three differ in what they write around the value and in the line of an error.
-/

namespace Rech

open Token (Word)

-- ---------------------------------------------------------------------------
-- An expression made a statement
-- ---------------------------------------------------------------------------

theorem Token.moves_indent (columns : Nat) :
    Token.Moves Token.line Token.line id (Token.indent columns) :=
  ⟨fun _ => rfl, fun _ => rfl, fun _ => rfl⟩

theorem Expr.mapLine_id (e : Expr) : e.mapLine id = e := by
  induction e with
  | identifier | number | string | null | foreign => rfl
  | negate _ _ ih => simp only [mapLine, ih, id]
  | math _ _ _ _ ihl ihr | comparison _ _ _ _ ihl ihr => simp only [mapLine, ihl, ihr, id]

/-- The statement that a word makes of the expressions behind it. -/
def Token.Word.Leads (word : Word) (e : Expr) (statement : Stmt) : Prop :=
  ∀ w closing, Expr.Derives Token.line Level.all w e → closing.kind = .semicolon →
    Stmt.Derives Token.line (⟨word.kind, word.text, .start⟩ :: (w ++ [closing])) statement

theorem Token.Word.leads_print (e : Expr) : printWord.Leads e (.print (some 1) e) :=
  fun _ _ value ended => .print rfl value ended

theorem Token.Word.leads_return (e : Expr) : returnWord.Leads e (.return (some 1) (some e)) :=
  fun _ _ value ended => .returnValue rfl value ended

theorem Program.ofSource_phrase {word : Word} (hword : word.Writable) (hline : '\n' ∉ word.span)
    (hleads : word.Leads e statement) (cut : Token.ofSource source = .ok tokens)
    (reads : Parsing.wholeExpression.ofTokens tokens = .ok e) :
    Program.ofSource (word.span ++ ' ' :: (source ++ ['\n', ';'])) = .ok ⟨[statement]⟩ := by
  obtain ⟨columns, closing, last, hphrase, hclosing⟩ := hword.ofSource_phrase hline cut
  have hends := (Token.ofSource_eq_ok_iff.1 cut).endsOnce
  have value := Parsing.derives_wholeExpression reads
  rw [hends.beforeEnd_eq] at value
  have moved := value.mapLine (Token.moves_indent columns)
  rw [Expr.mapLine_id] at moved
  refine Program.ofSource_eq_ok_iff.2 ⟨_, hphrase, ?_⟩
  have hall : Stmt.DerivesAll Token.line _ [statement] :=
    .cons (hleads _ closing moved hclosing) .nil
  simpa [Program.Derives, List.dropLast_cons_of_ne_nil] using hall

-- ---------------------------------------------------------------------------
-- What is shown
-- ---------------------------------------------------------------------------

theorem Snippet.ofSource_of_program {whole : Program} (h : Program.ofSource source = .ok whole) :
    ofSource source = .ok (.program whole) := by
  cases cut : Token.ofSource source with
  | error error =>
    rw [Program.ofSource, cut] at h
    cases h
  | ok tokens =>
    rw [Program.ofSource_of_tokens cut] at h
    exact (Reads.program cut h).ofSource_eq

theorem Step.perform_snippet_of_program {whole : Program}
    (h : Program.ofSource source = .ok whole) (trace : Bool) (store : Store) :
    (Step.snippet source).perform trace store =
      ((Snippet.program whole).report trace store).map fun _ => .shown := by
  rw [perform, Snippet.ofSource_of_program h]

theorem Step.perform_snippet_of_expression (cut : Token.ofSource source = .ok tokens)
    (reads : Parsing.wholeExpression.ofTokens tokens = .ok e) (trace : Bool) (store : Store) :
    (Step.snippet source).perform trace store =
      ((Snippet.expression e).report trace store).map fun _ => .shown := by
  rw [perform, (Snippet.Reads.expression cut reads).ofSource_eq]

/-- An expression that is a snippet by itself, is printed or is returned: its
value is shown alone, behind a mark of its own, or, if it is set, as a result,
or all three fail for the same cause, on no line or on the first one. The store
is left as it was. -/
theorem Step.expression_shown_alike (cut : Token.ofSource source = .ok tokens)
    (reads : Parsing.wholeExpression.ofTokens tokens = .ok e) (store : Store) :
    let alone := (Step.snippet source).perform false store
    let printed :=
      (Step.snippet ("напечатать ".toList ++ source ++ "\n;".toList)).perform false store
    let returned := (Step.snippet ("вернуть ".toList ++ source ++ "\n;".toList)).perform false store
    match e.eval store with
    | .ok value =>
      alone = ⟨[value.display], store, .ok .shown⟩ ∧
      printed = ⟨["вывод: " ++ value.display], store, .ok .shown⟩ ∧
      returned = ⟨if value = .unset then [] else ["Результат: " ++ value.display], store,
        .ok .shown⟩
    | .error cause =>
      alone = ⟨[], store, .error (.stopped ⟨cause, none⟩)⟩ ∧
      printed = ⟨[], store, .error (.stopped ⟨cause, some 1⟩)⟩ ∧
      returned = ⟨[], store, .error (.stopped ⟨cause, some 1⟩)⟩ := by
  intro alone printed returned
  have hprint := Program.ofSource_phrase (Word.writable_of_fixed _ (by simp [Word.fixed]))
    (by decide) (Word.leads_print e) cut reads
  have hreturn := Program.ofSource_phrase (Word.writable_of_fixed _ (by simp [Word.fixed]))
    (by decide) (Word.leads_return e) cut reads
  have halone : alone = _ := perform_snippet_of_expression cut reads false store
  have hprinted : printed = _ := perform_snippet_of_program hprint false store
  have hreturned : returned = _ := perform_snippet_of_program hreturn false store
  rw [halone, hprinted, hreturned]
  simp only [Snippet.report, Expr.report, Program.exec, Stmt.execAll, Stmt.exec, Expr.print,
    Expr.return]
  cases e.eval store with
  | error cause => exact ⟨rfl, rfl, rfl⟩
  | ok value =>
    refine ⟨rfl, rfl, ?_⟩
    cases value <;> rfl

/-- A string in parentheses over two lines with a comment behind it, and the same
string negated. -/
theorem Step.expression_shown_alike_commented :
    let value := "(\"a\"\n) // \x7d".toList
    let failing := "-\"a\" // \x7d".toList
    ((Step.snippet value).perform false ∅ = ⟨["a"], ∅, .ok .shown⟩ ∧
      (Step.snippet ("напечатать ".toList ++ value ++ "\n;".toList)).perform false ∅ =
        ⟨["вывод: a"], ∅, .ok .shown⟩ ∧
      (Step.snippet ("вернуть ".toList ++ value ++ "\n;".toList)).perform false ∅ =
        ⟨["Результат: a"], ∅, .ok .shown⟩) ∧
    ((Step.snippet failing).perform false ∅ =
        ⟨[], ∅, .error (.stopped ⟨.negationOfNonNumber, none⟩)⟩ ∧
      (Step.snippet ("напечатать ".toList ++ failing ++ "\n;".toList)).perform false ∅ =
        ⟨[], ∅, .error (.stopped ⟨.negationOfNonNumber, some 1⟩)⟩ ∧
      (Step.snippet ("вернуть ".toList ++ failing ++ "\n;".toList)).perform false ∅ =
        ⟨[], ∅, .error (.stopped ⟨.negationOfNonNumber, some 1⟩)⟩) := by
  intro value failing
  have hvalue : Token.ofSource value = .ok [⟨.leftParen, "(", ⟨1, 1⟩⟩, ⟨.string, "a", ⟨1, 2⟩⟩,
      ⟨.rightParen, ")", ⟨2, 1⟩⟩, ⟨.endOfFile, "\x00", ⟨2, 7⟩⟩] := by
    decide +kernel
  have hfailing : Token.ofSource failing = .ok [⟨.math, "-", ⟨1, 1⟩⟩, ⟨.string, "a", ⟨1, 2⟩⟩,
      ⟨.endOfFile, "\x00", ⟨1, 10⟩⟩] := by
    decide +kernel
  let negated : Expr := .negate (some 1) (.string (some 1) "a")
  exact ⟨expression_shown_alike hvalue rfl ∅, expression_shown_alike (e := negated) hfailing rfl ∅⟩

end Rech
