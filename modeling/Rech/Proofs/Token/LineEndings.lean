import Rech.Proofs.Grammar.Vocabulary
import Rech.Proofs.Token.Exact

/-!
# Line endings

A carriage return in front of a newline is one more blank of a gap, or the last
character of a comment or of a string that its line does not close. It is in no
spelling and in no run, and the columns behind the newline are counted anew. So a
text with a carriage return in front of every newline is read like the text without.
-/

namespace Rech

namespace Text

/-- A carriage return and a newline in place of every newline. A carriage return that
stands there already stays. -/
def withReturns (text : List Char) : List Char :=
  text.flatMap fun c => if c = '\n' then ['\r', '\n'] else [c]

@[simp] theorem withReturns_append (text more : List Char) :
    withReturns (text ++ more) = withReturns text ++ withReturns more :=
  List.flatMap_append

@[simp] theorem withReturns_newline (rest : List Char) :
    withReturns ('\n' :: rest) = '\r' :: '\n' :: withReturns rest := rfl

theorem withReturns_cons {c : Char} (h : c ≠ '\n') (rest : List Char) :
    withReturns (c :: rest) = c :: withReturns rest := by
  rw [withReturns, List.flatMap_cons, if_neg h]
  rfl

theorem withReturns_of_inLine {text : List Char} (h : '\n' ∉ text) : withReturns text = text := by
  induction text with
  | nil => rfl
  | cons c text ih =>
    obtain ⟨hc, htext⟩ := List.ne_and_not_mem_of_not_mem_cons h
    rw [withReturns_cons (Ne.symm hc), ih htext]

theorem head?_withReturns {p : Char → Bool} {text : List Char} (hreturn : p '\r' = false)
    (h : ∀ c ∈ text.head?, p c = false) : ∀ c ∈ (withReturns text).head?, p c = false := by
  cases text with
  | nil => exact h
  | cons c rest =>
    by_cases hc : c = '\n'
    · subst hc
      rintro d ⟨⟩
      exact hreturn
    · rw [withReturns_cons hc]
      exact h

end Text

open Text

theorem Place.behind_withReturns (before : List Char) :
    behind (withReturns before) = behind before := by
  obtain ⟨reversed, rfl⟩ : ∃ reversed : List Char, before = reversed.reverse :=
    ⟨before.reverse, by simp⟩
  induction reversed with
  | nil => rfl
  | cons c reversed ih =>
    rw [List.reverse_cons, withReturns_append, ← after_behind reversed.reverse, ← ih]
    by_cases hc : c = '\n'
    · subst hc
      -- The carriage return moves the column, which the newline sets back.
      calc behind (withReturns reversed.reverse ++ ['\r', '\n'])
        _ = ((behind (withReturns reversed.reverse)).after (some '\r')).after (some '\n') := by
          rw [after_behind, after_behind, List.append_assoc, List.singleton_append]
        _ = (behind (withReturns reversed.reverse)).after (some '\n') := rfl
    · rw [withReturns_cons hc]
      exact (after_behind _ _).symm

namespace Lexing

-- ---------------------------------------------------------------------------
-- Lexemes
-- ---------------------------------------------------------------------------

theorem prefix_withReturns_iff {key text : List Char}
    (hkey : ∀ c, Token.isSpace c = true → c ∉ key) : key <+: withReturns text ↔ key <+: text := by
  induction key generalizing text with
  | nil => simp
  | cons d key ih =>
    have hd (c : Char) (hc : Token.isSpace c = true) : d ≠ c := fun heq =>
      hkey c hc (heq ▸ List.mem_cons_self)
    cases text with
    | nil => exact Iff.rfl
    | cons c text =>
      by_cases hc : c = '\n'
      · subst hc
        rw [withReturns_newline, List.cons_prefix_cons, List.cons_prefix_cons]
        exact iff_of_false (fun h => hd '\r' rfl h.1) (fun h => hd '\n' rfl h.1)
      · rw [withReturns_cons hc, List.cons_prefix_cons, List.cons_prefix_cons,
          ih fun c hc hmem => hkey c hc (List.mem_cons_of_mem _ hmem)]

theorem isKey_withReturns_iff : IsKey (withReturns text) entry ↔ IsKey text entry :=
  and_congr_right fun hmem => prefix_withReturns_iff fun _ hc => not_mem_of_isSpace hc entry hmem

theorem NoKey.withReturns (h : NoKey text) : NoKey (withReturns text) := fun entry hkey =>
  h entry (isKey_withReturns_iff.1 hkey)

theorem LongestKey.withReturns (h : LongestKey text entry) :
    LongestKey (withReturns text) entry := by
  simpa only [LongestKey, isKey_withReturns_iff] using h

theorem WholeRun.withReturns (h : WholeRun inRun run rest) (hreturn : inRun '\r' = false) :
    WholeRun inRun run (withReturns rest) :=
  ⟨h.nonempty, h.inside, head?_withReturns hreturn h.maximal⟩

theorem Lexeme.span_inLine (h : Lexeme kind text span rest) : '\n' ∉ span := by
  have hline := h.inLine
  cases h with
  | key | number | identifier => exact hline
  | string => simpa using hline

theorem Lexeme.withReturns_span (h : Lexeme kind text span rest) : withReturns span = span :=
  withReturns_of_inLine h.span_inLine

theorem Lexeme.withReturns (h : Lexeme kind text span rest) :
    Lexeme kind text span (withReturns rest) := by
  have hwhole : Text.withReturns (span ++ rest) = span ++ Text.withReturns rest := by
    rw [withReturns_append, h.withReturns_span]
  cases h with
  | key longest shown => exact .key (hwhole ▸ longest.withReturns) shown
  | number noKey run =>
    exact .number (hwhole ▸ noKey.withReturns) (run.withReturns (isNumeric_of_isSpace rfl))
  | string noKey closed inLine =>
    have hkey := noKey.withReturns
    rw [List.cons_append, List.append_assoc, List.singleton_append] at hwhole
    rw [hwhole] at hkey
    exact .string (by simpa using hkey) closed inLine
  | identifier noKey notNumber run =>
    exact .identifier (hwhole ▸ noKey.withReturns) notNumber
      (run.withReturns (isIdentifierChar_of_isSpace rfl))

theorem Unclosed.withReturns (h : Unclosed text rest) : ∃ more others,
    withReturns (text ++ rest) = more ++ others ∧ Unclosed more others := by
  have hline : '\n' ∉ text := fun hmem => by simpa [inString] using h.inside _ hmem
  have hkey := h.noKey.withReturns
  rw [withReturns_cons (by decide)] at hkey
  cases rest with
  | nil =>
    exact ⟨text, [], by rw [List.append_nil, withReturns_of_inLine hline], h⟩
  | cons c rest =>
    obtain rfl : c = '\n' := h.stopped c rfl
    have hwhole : Text.withReturns (text ++ '\n' :: rest) =
        (text ++ ['\r']) ++ '\n' :: Text.withReturns rest := by
      rw [withReturns_append, withReturns_of_inLine hline, withReturns_newline,
        List.append_assoc, List.singleton_append]
    refine ⟨_, _, hwhole, hwhole ▸ hkey, ?_, by simp⟩
    exact List.forall_mem_append.2 ⟨h.inside, List.forall_mem_singleton.2 rfl⟩

-- ---------------------------------------------------------------------------
-- Gaps
-- ---------------------------------------------------------------------------

theorem NoRule.withReturns (h : NoRule c rest) (hc : c ≠ '\n') : NoRule c (withReturns rest) where
  noKey := withReturns_cons hc rest ▸ h.noKey.withReturns
  notNumber := h.notNumber
  notString := h.notString
  notIdentifier := h.notIdentifier

theorem Gap.withReturns (h : Gap skipped rest) : Gap (withReturns skipped) (withReturns rest) := by
  induction h with
  | none => exact .none
  | @blank c gap rest blank _ ih =>
    by_cases hc : c = '\n'
    · subst hc
      exact .blank rfl (.blank rfl ih)
    · rw [withReturns_cons hc]
      exact .blank blank ih
  | @comment text gap rest inLine _ ih =>
    -- The carriage return ends the comment's text.
    have hreturn : '\n' ∉ text ++ ['\r'] := by simpa using inLine
    have hcomment := Gap.comment hreturn ih
    rw [withReturns_cons (by decide), withReturns_cons (by decide), withReturns_append,
      withReturns_of_inLine inLine, withReturns_newline]
    simpa using hcomment
  | @lastComment text inLine =>
    rw [withReturns_cons (by decide), withReturns_cons (by decide), withReturns_of_inLine inLine]
    exact .lastComment inLine
  | @dropped c gap rest noRule _ ih =>
    by_cases hc : c = '\n'
    · subst hc
      exact .blank rfl (.blank rfl ih)
    · rw [withReturns_cons hc]
      exact .dropped (withReturns_append gap rest ▸ noRule.withReturns hc) ih

-- ---------------------------------------------------------------------------
-- Texts
-- ---------------------------------------------------------------------------

theorem Segmented.withReturns (h : Segmented before source tokens) :
    Segmented (withReturns before) (withReturns source) tokens := by
  induction h with
  | @last text before gap =>
    rw [← Place.behind_withReturns, withReturns_append]
    exact .last gap.withReturns
  | @token skipped span rest kind text before tokens gap lexeme _ ih =>
    have hgap := gap.withReturns
    rw [← Place.behind_withReturns]
    simp only [withReturns_append, lexeme.withReturns_span] at hgap ih ⊢
    exact .token hgap lexeme.withReturns ih

theorem Broken.withReturns (h : Broken before source tokens place) :
    Broken (withReturns before) (withReturns source) tokens place := by
  induction h with
  | @unclosed skipped text rest before gap unclosed =>
    obtain ⟨more, others, hwhole, hunclosed⟩ := unclosed.withReturns
    have hquote : Text.withReturns ('"' :: (text ++ rest)) = '"' :: (more ++ others) := by
      rw [withReturns_cons (by decide), hwhole]
    have hgap := gap.withReturns
    rw [hquote] at hgap
    rw [← Place.behind_withReturns, withReturns_append, withReturns_append, hquote]
    exact .unclosed hgap hunclosed
  | @token skipped span rest kind text before tokens place gap lexeme _ ih =>
    have hgap := gap.withReturns
    rw [← Place.behind_withReturns]
    simp only [withReturns_append, lexeme.withReturns_span] at hgap ih ⊢
    exact .token hgap lexeme.withReturns ih

end Lexing

/-- A text is read alike with either line ending: a carriage return in front of every
newline changes no token, no place and no error. -/
theorem Token.ofSource_withReturns (source : List Char) :
    Token.ofSource (withReturns source) = Token.ofSource source := by
  cases h : Token.ofSource source with
  | ok tokens => exact ofSource_eq_ok_iff.2 (ofSource_eq_ok_iff.1 h).withReturns
  | error error =>
    obtain ⟨tokens, place, hbroken, rfl⟩ := ofSource_eq_error_iff.1 h
    exact ofSource_eq_error_iff.2 ⟨tokens, place, hbroken.withReturns, rfl⟩

end Rech
