import Rech.Proofs.Token.Reading

/-!
# The tokens of a source text

Reading succeeds on exactly the texts that can be cut, with the tokens of the
one way to cut them. The end of file is the last token and no other. Any other
text breaks off at a string that is not closed, and that is its error.
-/

namespace Rech

/-- The end of file is the last token, and no other one is. -/
def Token.EndsOnce (tokens : List Token) : Prop :=
  ∃ shown last, tokens = shown ++ [last] ∧ last.kind = .endOfFile ∧
    ∀ token ∈ shown, token.kind ≠ .endOfFile

theorem Token.EndsOnce.filter_eq {tokens : List Token} (h : Token.EndsOnce tokens) :
    tokens.filter (·.kind ≠ .endOfFile) = tokens.dropLast := by
  obtain ⟨shown, last, rfl, hlast, hshown⟩ := h
  simpa [List.filter_append, hlast] using hshown

namespace Reader

variable {reader after : Reader} {token : Token}

theorem tokens_of_end (h : reader.next = (.ok token, after)) (hk : token.kind = .endOfFile) :
    reader.tokens = .ok [token] := by
  rw [tokens]
  split <;> simp_all

theorem tokens_of_next (h : reader.next = (.ok token, after)) (hk : token.kind ≠ .endOfFile) :
    reader.tokens = after.tokens.map (token :: ·) := by
  rw [tokens]
  split <;> simp_all

theorem tokens_of_error (h : reader.next = (.error error, after)) :
    reader.tokens = .error error := by
  rw [tokens]
  split <;> simp_all

def yielded (reader : Reader) : List Token :=
  match _h : reader.next with
  | (.error _, _) => []
  | (.ok token, after) => if _hk : token.kind = .endOfFile then [] else token :: after.yielded
termination_by reader.rest.length
decreasing_by exact length_rest_next_lt _h _hk

theorem yielded_of_end (h : reader.next = (.ok token, after)) (hk : token.kind = .endOfFile) :
    reader.yielded = [] := by
  rw [yielded]
  split <;> simp_all

theorem yielded_of_next (h : reader.next = (.ok token, after)) (hk : token.kind ≠ .endOfFile) :
    reader.yielded = token :: after.yielded := by
  rw [yielded]
  split <;> simp_all

theorem yielded_of_error (h : reader.next = (.error error, after)) : reader.yielded = [] := by
  rw [yielded]
  split <;> simp_all

end Reader

namespace Lexing

theorem Lexeme.kind_ne_endOfFile (h : Lexeme kind text span rest) : kind ≠ .endOfFile := by
  cases h with
  | key longest => exact Token.kind_ne_endOfFile_of_mem_table _ longest.1.1
  | number | string | identifier => simp

theorem Lexeme.span_ne_nil (h : Lexeme kind text span rest) : span ≠ [] := by
  cases h with
  | key longest => exact Token.ne_nil_of_mem_table _ longest.1.1
  | number _ run | identifier _ _ run => exact run.nonempty
  | string => simp

-- ---------------------------------------------------------------------------
-- One token
-- ---------------------------------------------------------------------------

theorem next_last (h : Gap text []) : (Reader.behind before text).next =
    (.ok ⟨.endOfFile, "\x00", .behind (before ++ text)⟩, .behind (before ++ text) []) := by
  have hskip : (Reader.behind before (text ++ [])).skipGap = .behind (before ++ text) [] :=
    skipGap_behind h (.inl rfl)
  rw [List.append_nil] at hskip
  rw [Reader.next, hskip]
  rfl

theorem next_token (h : Gap skipped (span ++ rest)) (hl : Lexeme kind text span rest) :
    (Reader.behind before (skipped ++ (span ++ rest))).next =
      (.ok ⟨kind, String.ofList text, .behind (before ++ skipped)⟩,
        .behind (before ++ (skipped ++ span)) rest) := by
  rw [Reader.next, skipGap_behind h (.inr hl.beginsLexeme), readLexeme_behind hl,
    List.append_assoc]

theorem next_unclosed (h : Gap skipped ('"' :: (text ++ rest))) (hu : Unclosed text rest)
    (hb : Token.beginsLexeme ('"' :: (text ++ rest)) = true) :
    (Reader.behind before (skipped ++ '"' :: (text ++ rest))).next =
      (.error ⟨.unclosedString, some (.behind (before ++ skipped))⟩,
        .behind (before ++ skipped ++ '"' :: text) rest) := by
  rw [Reader.next, skipGap_behind h (.inr hb), readLexeme_unclosed hu]

-- ---------------------------------------------------------------------------
-- All tokens
-- ---------------------------------------------------------------------------

theorem Segmented.tokens_behind (h : Segmented before source tokens) :
    (Reader.behind before source).tokens = .ok tokens := by
  induction h with
  | last gap => exact Reader.tokens_of_end (next_last gap) rfl
  | token gap lexeme _ ih =>
    rw [Reader.tokens_of_next (next_token gap lexeme) lexeme.kind_ne_endOfFile, ih]
    rfl

theorem Unclosed.beginsLexeme (h : Unclosed text rest) :
    Token.beginsLexeme ('"' :: (text ++ rest)) = true := by
  simp [Token.beginsLexeme, key?_eq_none_iff.2 h.noKey]

/-- A text that cannot be cut: reading stops at a string that its line does not
close, behind the given tokens. -/
inductive Broken : List Char → List Char → List Token → Place → Prop
  | unclosed (gap : Gap skipped ('"' :: (text ++ rest))) (unclosed : Unclosed text rest) :
      Broken before (skipped ++ '"' :: (text ++ rest)) [] (.behind (before ++ skipped))
  | token (gap : Gap skipped (span ++ rest)) (lexeme : Lexeme kind text span rest)
      (others : Broken (before ++ (skipped ++ span)) rest tokens place) :
      Broken before (skipped ++ (span ++ rest))
        (⟨kind, String.ofList text, .behind (before ++ skipped)⟩ :: tokens) place

/-- The error is at the string that is not closed. -/
theorem Broken.tokens_behind (h : Broken before source tokens place) :
    (Reader.behind before source).tokens = .error ⟨.unclosedString, some place⟩ := by
  induction h with
  | unclosed gap unclosed =>
    exact Reader.tokens_of_error (next_unclosed gap unclosed unclosed.beginsLexeme)
  | token gap lexeme _ ih =>
    rw [Reader.tokens_of_next (next_token gap lexeme) lexeme.kind_ne_endOfFile, ih]
    rfl

/-- What a text begins with behind its gap: the end, a lexeme or a string that is not
closed. -/
inductive Front : List Char → Prop
  | last (gap : Gap text []) : Front text
  | token (gap : Gap skipped (span ++ rest)) (lexeme : Lexeme kind text span rest) :
      Front (skipped ++ (span ++ rest))
  | unclosed (gap : Gap skipped ('"' :: (text ++ rest))) (unclosed : Unclosed text rest) :
      Front (skipped ++ '"' :: (text ++ rest))

theorem Front.total (source : List Char) : Front source := by
  obtain ⟨skipped, rest, rfl, hgap, -, hrest⟩ := exists_gap source
  rcases hrest with rfl | hlexeme
  · rw [List.append_nil]
    exact .last hgap
  rcases exists_lexeme_of_beginsLexeme hlexeme with hcut | hunclosed
  · obtain ⟨kind, text, span, rest, rfl, hl⟩ := hcut
    exact .token hgap hl
  · obtain ⟨text, rest, rfl, hu⟩ := hunclosed
    exact .unclosed hgap hu

/-- A text can be cut or breaks off. The induction is on the length of the text,
as what is left behind a token is no part of it. -/
theorem segmented_or_broken (before source : List Char) :
    (∃ tokens, Segmented before source tokens) ∨
      ∃ tokens place, Broken before source tokens place := by
  induction hn : source.length using Nat.strong_induction_on generalizing before source with
  | _ n ih =>
    cases Front.total source with
    | last gap => exact .inl ⟨_, .last gap⟩
    | @token skipped span rest _ _ gap lexeme =>
      have hpos := List.length_pos_iff.2 lexeme.span_ne_nil
      have hlt : rest.length < n := by
        simp only [List.length_append] at hn
        omega
      rcases ih rest.length hlt (before ++ (skipped ++ span)) rest rfl with hothers | hothers
      · obtain ⟨others, hothers⟩ := hothers
        exact .inl ⟨_, .token gap lexeme hothers⟩
      · obtain ⟨others, place, hothers⟩ := hothers
        exact .inr ⟨_, _, .token gap lexeme hothers⟩
    | unclosed gap unclosed => exact .inr ⟨_, _, .unclosed gap unclosed⟩

theorem segmented_of_tokens_behind {before source : List Char} {tokens : List Token}
    (h : (Reader.behind before source).tokens = .ok tokens) : Segmented before source tokens := by
  rcases segmented_or_broken before source with ⟨others, hcut⟩ | ⟨others, place, hbroken⟩
  · obtain rfl := Except.ok.inj (hcut.tokens_behind.symm.trans h)
    exact hcut
  · cases hbroken.tokens_behind.symm.trans h

theorem Segmented.ne_nil (h : Segmented before source tokens) : tokens ≠ [] := by
  cases h <;> simp

theorem Segmented.yielded_behind (h : Segmented before source tokens) :
    (Reader.behind before source).yielded = tokens.dropLast := by
  induction h with
  | last gap => exact Reader.yielded_of_end (next_last gap) rfl
  | token gap lexeme others ih =>
    rw [Reader.yielded_of_next (next_token gap lexeme) lexeme.kind_ne_endOfFile, ih,
      List.dropLast_cons_of_ne_nil others.ne_nil]

theorem Broken.yielded_behind (h : Broken before source tokens place) :
    (Reader.behind before source).yielded = tokens := by
  induction h with
  | unclosed gap unclosed =>
    exact Reader.yielded_of_error (next_unclosed gap unclosed unclosed.beginsLexeme)
  | token gap lexeme _ ih =>
    rw [Reader.yielded_of_next (next_token gap lexeme) lexeme.kind_ne_endOfFile, ih]

theorem Segmented.endsOnce (h : Segmented before source tokens) : Token.EndsOnce tokens := by
  induction h with
  | last gap => exact ⟨[], _, rfl, rfl, by simp⟩
  | token gap lexeme _ ih =>
    obtain ⟨shown, last, rfl, hlast, hshown⟩ := ih
    exact ⟨_ :: shown, last, rfl, hlast, List.forall_mem_cons.2 ⟨lexeme.kind_ne_endOfFile, hshown⟩⟩

theorem Segmented.unique (h : Segmented before source tokens)
    (h' : Segmented before source others) : tokens = others :=
  Except.ok.inj (h.tokens_behind.symm.trans h'.tokens_behind)

end Lexing

theorem Token.ofSource_eq_ok_iff {source : List Char} {tokens : List Token} :
    Token.ofSource source = .ok tokens ↔ Lexing.Segmented [] source tokens := by
  rw [ofSource, ← Reader.behind_nil]
  exact ⟨Lexing.segmented_of_tokens_behind, Lexing.Segmented.tokens_behind⟩

theorem Token.ofSource_eq_error_iff {source : List Char} {error : SyntaxError} :
    Token.ofSource source = .error error ↔ ∃ tokens place,
      Lexing.Broken [] source tokens place ∧ error = ⟨.unclosedString, some place⟩ := by
  rw [ofSource, ← Reader.behind_nil]
  constructor
  · intro h
    rcases Lexing.segmented_or_broken [] source with ⟨tokens, hcut⟩ | ⟨tokens, place, hbroken⟩
    · cases hcut.tokens_behind.symm.trans h
    · exact ⟨tokens, place, hbroken, Except.error.inj (h.symm.trans hbroken.tokens_behind)⟩
  · rintro ⟨tokens, place, hbroken, rfl⟩
    exact hbroken.tokens_behind

/-- Reading loses nothing: the tokens read are those of the one way to cut the
text, and the end of file is the last of them and no other. -/
theorem Token.ofSource_exact (source : List Char) (tokens : List Token) :
    Token.ofSource source = .ok tokens ↔
      Lexing.Segmented [] source tokens ∧ Token.EndsOnce tokens := by
  rw [Token.ofSource_eq_ok_iff]
  exact ⟨fun h => ⟨h, h.endsOnce⟩, And.left⟩

end Rech
