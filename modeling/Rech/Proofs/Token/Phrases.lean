import Rech.Proofs.Token.Joining
import Rech.Proofs.Token.Writing

/-!
# Words before a text

A word and a space before a text are a token more, and nothing else: the tokens
of the text are as they are alone, with the columns of their first line moved.
-/

namespace Rech

def Token.indent (columns : Nat) (token : Token) : Token :=
  { token with place := token.place.indent columns }

namespace Lexing

theorem Segmented.behind_inLine (h : Segmented before source tokens) (hfront : '\n' ∉ front) :
    Segmented (front ++ before) source (tokens.map (Token.indent front.length)) := by
  induction h with
  | @last last before gap =>
    have hlast : Segmented (front ++ before) last _ := .last gap
    rwa [List.append_assoc, Place.behind_inLine hfront] at hlast
  | @token skipped span rest kind shown before tokens gap lexeme _ ih =>
    rw [← List.append_assoc] at ih
    have htoken := Segmented.token gap lexeme ih
    rwa [List.append_assoc, Place.behind_inLine hfront] at htoken

theorem Segmented.blank {c : Char} (hc : Token.isSpace c = true)
    (h : Segmented (before ++ [c]) source tokens) : Segmented before (c :: source) tokens := by
  cases h with
  | last gap =>
    have hlast : Segmented before _ _ := .last (.blank hc gap)
    simpa using hlast
  | token gap lexeme others =>
    have htoken : Segmented before _ _ := .token (.blank hc gap) lexeme (by simpa using others)
    simpa using htoken

end Lexing

open Lexing

namespace Token

theorem Word.Writable.ofSource_cons {word : Word} (hword : word.Writable)
    (hline : '\n' ∉ word.span) (h : Token.ofSource source = .ok tokens) :
    Token.ofSource (word.span ++ ' ' :: source) =
      .ok (⟨word.kind, word.text, .start⟩ :: tokens.map (indent (word.span.length + 1))) := by
  have hfront : '\n' ∉ word.span ++ [' '] := by simp [hline]
  have hcut := (ofSource_eq_ok_iff.1 h).behind_inLine hfront
  rw [List.append_nil, List.length_append, List.length_singleton] at hcut
  have hothers : Segmented ([] ++ ([] ++ word.span)) (' ' :: source) _ := hcut.blank rfl
  have hstops : Stops (' ' :: source) := by
    rintro c ⟨⟩
    rfl
  have hfirst := Segmented.token .none (hword.lexeme.stops hstops) hothers
  rw [String.ofList_toList] at hfirst
  exact ofSource_eq_ok_iff.2 hfirst

theorem Word.Writable.ofSource_phrase {word : Word} (hword : word.Writable)
    (hline : '\n' ∉ word.span) (h : Token.ofSource source = .ok tokens) :
    ∃ columns closing last,
      Token.ofSource (word.span ++ ' ' :: (source ++ ['\n', ';'])) =
        .ok (⟨word.kind, word.text, .start⟩ ::
          (tokens.dropLast.map (indent columns) ++ [closing, last])) ∧
      closing.kind = .semicolon := by
  have hsemicolon : Token.ofSource [';'] =
      .ok [⟨.semicolon, ";", ⟨1, 1⟩⟩, ⟨.endOfFile, "\x00", ⟨1, 2⟩⟩] := by
    decide +kernel
  have hjoined := ofSource_join (hword.ofSource_cons hline h) hsemicolon
  have hne := (ofSource_eq_ok_iff.1 h).ne_nil
  rw [List.dropLast_cons_of_ne_nil (by simpa using hne), ← List.map_dropLast, List.append_assoc,
    List.cons_append, List.cons_append] at hjoined
  exact ⟨_, _, _, hjoined, rfl⟩

end Token

end Rech
