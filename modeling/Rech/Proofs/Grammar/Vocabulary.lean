import Rech.Proofs.Grammar.Parts
import Rech.Proofs.Grammar.Source
import Rech.Proofs.Text.InLine
import Rech.Proofs.Token.Writing

/-!
# The words of a text and of its tree

No token of a text has a newline inside, and no string a quote. A tree has the
names, the strings and the operators of the tokens that spell it, and no others.
-/

namespace Rech

open Token (Word)

-- ---------------------------------------------------------------------------
-- Texts
-- ---------------------------------------------------------------------------

theorem Token.inLine_of_mem_table : ∀ entry ∈ table, '\n' ∉ entry.1 := by
  decide

theorem Token.kind_ne_number_of_mem_table : ∀ entry ∈ table, entry.2 ≠ .number := by
  decide

namespace Lexing

theorem not_mem_of_inside {inRun : Char → Bool} {run : List Char} (h : ∀ c ∈ run, inRun c = true)
    (hnewline : inRun '\n' = false) : '\n' ∉ run := by
  intro hmem
  simp [h _ hmem] at hnewline

theorem Lexeme.inLine (h : Lexeme kind text span rest) : '\n' ∉ text := by
  cases h with
  | key longest => exact Token.inLine_of_mem_table _ longest.1.1
  | number _ run => exact not_mem_of_inside run.inside rfl
  | string _ _ inLine => exact inLine
  | identifier _ _ run => exact not_mem_of_inside run.inside (by decide +kernel)

theorem Lexeme.closed (h : Lexeme .string text span rest) : '"' ∉ text := by
  cases h with
  | key longest => exact absurd rfl (kind_ne_string_of_mem_table _ longest.1.1)
  | string _ closed => exact closed

theorem Lexeme.wholeRun (h : Lexeme .number text span rest) :
    WholeRun Token.isNumeric text rest := by
  cases h with
  | key longest => exact absurd rfl (Token.kind_ne_number_of_mem_table _ longest.1.1)
  | number _ run => exact run

theorem Segmented.lexeme_of_mem {token : Token} (h : Segmented before source tokens)
    (hmem : token ∈ tokens) :
    token.word = Word.last ∨
      ∃ text span rest, Lexeme token.kind text span rest ∧ token.text = String.ofList text := by
  induction h with
  | last =>
    obtain rfl := List.mem_singleton.1 hmem
    exact .inl rfl
  | token _ lexeme _ ih =>
    rcases List.mem_cons.1 hmem with rfl | hmem
    · exact .inr ⟨_, _, _, lexeme, rfl⟩
    · exact ih hmem

end Lexing

/-- The word of a token of a text. -/
def Token.Word.In (source : List Char) (word : Word) : Prop :=
  ∃ tokens, Token.ofSource source = .ok tokens ∧ word ∈ tokens.map Token.word

namespace Token.Word.In

theorem lexeme {word : Word} (h : word.In source) : word = last ∨
    ∃ text span rest, Lexing.Lexeme word.kind text span rest ∧ word.text = String.ofList text := by
  obtain ⟨tokens, htokens, hmem⟩ := h
  obtain ⟨token, htoken, rfl⟩ := List.mem_map.1 hmem
  exact (Token.ofSource_eq_ok_iff.1 htokens).lexeme_of_mem htoken

theorem inLine {word : Word} (h : word.In source) : Text.InLine word.text := by
  rcases h.lexeme with rfl | ⟨text, span, rest, lexeme, htext⟩
  · decide
  · rw [htext, Text.inLine_ofList]
    exact lexeme.inLine

theorem isNumeral {text : String} (h : In source ⟨.number, text⟩) : IsNumeral text := by
  rcases h.lexeme with hlast | ⟨text, span, rest, lexeme, rfl⟩
  · cases hlast
  · have run := lexeme.wholeRun
    exact ⟨by simpa using run.nonempty, by simpa using run.inside⟩

theorem isLiteral {text : String} (h : In source ⟨.string, text⟩) : IsLiteral text where
  closed := by
    rcases h.lexeme with hlast | ⟨text, span, rest, lexeme, rfl⟩
    · cases hlast
    · simpa using lexeme.closed
  inLine := h.inLine

end Token.Word.In

-- ---------------------------------------------------------------------------
-- Trees
-- ---------------------------------------------------------------------------

/-- The names, strings and operators of an expression are such words. A node of
another kind has no words. -/
inductive Expr.MadeOf (words : Word → Prop) : Expr → Prop
  | identifier {name : Identifier} (word : words ⟨.identifier, name.symbol⟩) :
      MadeOf words (.identifier name)
  | number {line : Option Int} {value : Binary64} : MadeOf words (.number line value)
  | string {line : Option Int} (word : words ⟨.string, text⟩) : MadeOf words (.string line text)
  | null {line : Option Int} : MadeOf words (.null line spelling)
  | negate {line : Option Int} (operand : MadeOf words e) : MadeOf words (.negate line e)
  | math {line : Option Int} (left : MadeOf words l) (sign : words ⟨.math, operator⟩)
      (right : MadeOf words r) : MadeOf words (.math line l operator r)
  | comparison {line : Option Int} (left : MadeOf words l) (sign : words ⟨.comparison, operator⟩)
      (right : MadeOf words r) : MadeOf words (.comparison line l operator r)

/-- The names, strings and operators that a statement has by itself are such words. -/
structure Stmt.MadeOf (words : Word → Prop) (s : Stmt) : Prop where
  targets : ∀ name ∈ s.targets, words ⟨.identifier, name⟩
  expressions : ∀ e ∈ s.expressions, e.MadeOf words

variable {words : Word → Prop} {anchor : Token → Option Int}

theorem Level.madeOf_node {level : Level} {sign : Token} (operator : level.Has sign)
    (word : words sign.word) (hl : l.MadeOf words) (hr : r.MadeOf words) (line : Option Int) :
    (level.node line l sign.text r).MadeOf words := by
  rw [Token.word] at word
  cases level with
  | comparison => exact .comparison hl (operator.1 ▸ word) hr
  | additive | multiplicative => exact .math hl (operator.1 ▸ word) hr

theorem Expr.Derives.madeOf (h : Expr.Derives anchor levels w e)
    (hw : ∀ token ∈ w, words token.word) : e.MadeOf words := by
  induction h with
  | number => exact .number
  | @string token kind => exact .string (by simpa [Token.word, kind] using hw)
  | null => exact .null
  | @identifier token kind => exact .identifier (by simpa [Token.word, kind] using hw)
  | negate _ _ _ ih => exact .negate (ih (List.forall_mem_cons.1 hw).2)
  | parenthesized _ _ _ ih =>
    exact ih fun token htoken => hw token (by simp [htoken])
  | single _ ih => exact ih hw
  | applied _ operator _ ihl ihr =>
    obtain ⟨hv, hsign⟩ := List.forall_mem_append.1 hw
    obtain ⟨hsign, hw⟩ := List.forall_mem_cons.1 hsign
    exact Level.madeOf_node operator hsign (ihl hv) (ihr hw) _

theorem Assignment.Derives.word_target (h : Assignment.Derives anchor w a)
    (hw : ∀ token ∈ w, words token.word) : words ⟨.identifier, a.target.symbol⟩ := by
  cases h with
  | mk target =>
    have hname := hw _ List.mem_cons_self
    rwa [Token.word, target] at hname

theorem Stmt.Derives.madeOf (h : Stmt.Derives anchor w s) (hw : ∀ token ∈ w, words token.word) :
    s.MadeOf words where
  targets := by
    cases h with
    | block | choice | print | returnNothing | returnValue | expression =>
      exact List.forall_mem_nil _
    | declaration _ init =>
      have hname := init.word_target fun token htoken => hw token (by simp [htoken])
      simpa [Stmt.targets] using hname
    | assignment assigned =>
      have hname := assigned.word_target fun token htoken => hw token (by simp [htoken])
      simpa [Stmt.targets] using hname
  expressions e hmem := by
    obtain ⟨v, hv, hd⟩ := h.part e hmem
    exact hd.madeOf fun token htoken => hw token (hv htoken)

theorem Token.word_of_ofSource {tokens : List Token} (h : Token.ofSource source = .ok tokens)
    (hw : ∀ word : Word, word.In source → words word) : ∀ token ∈ tokens, words token.word :=
  fun _ htoken => hw _ ⟨tokens, h, List.mem_map_of_mem htoken⟩

theorem Program.madeOf_ofSource {source : List Char} {program : Program}
    (h : Program.ofSource source = .ok program) (hw : ∀ word : Word, word.In source → words word) :
    ∀ s ∈ program.statements, s.MadeOf words := by
  intro s hmem
  obtain ⟨tokens, htokens, hd⟩ := Program.ofSource_eq_ok_iff.1 h
  obtain ⟨v, hv, hs⟩ := Stmt.DerivesAll.statements hd s hmem
  have hword := Token.word_of_ofSource htokens hw
  exact hs.madeOf fun token h => hword token (List.dropLast_subset _ (hv h))

end Rech
