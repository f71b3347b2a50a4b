import Rech.Proofs.Grammar.Vocabulary

/-!
# Rendering tokens

The words of a text can be written. So a text and any rendering of its words
have the same words.
-/

namespace Rech

-- ---------------------------------------------------------------------------
-- The word of a lexeme
-- ---------------------------------------------------------------------------

namespace Lexing

theorem isNumeric_of_isDigit {c : Char} (h : c.isDigit = true) : Token.isNumeric c = true := by
  have hcodes : ∀ code ∈ List.range' 48 10, Token.isNumeric (Char.ofNat code) = true := by decide
  have hc : c.toNat ∈ List.range' 48 10 := by
    rw [Char.isDigit, Bool.and_eq_true, decide_eq_true_eq, decide_eq_true_eq] at h
    have hlow : 48 ≤ c.toNat := h.1
    have hhigh : c.toNat ≤ 57 := h.2
    rw [List.mem_range'_1]
    omega
  rw [← Char.ofNat_toNat c]
  exact hcodes _ hc

theorem isName_of_wholeRun {text : List Char} (noKey : NoKey (text ++ rest))
    (notNumber : ∀ c ∈ text.head?, Token.isNumeric c = false)
    (run : WholeRun Token.isIdentifierChar text rest) : Token.IsName (String.ofList text) where
  nonempty := by simpa using run.nonempty
  inside := by simpa using run.inside
  noDigit c hc := by
    rw [String.toList_ofList] at hc
    rw [Bool.eq_false_iff]
    intro hdigit
    exact absurd (isNumeric_of_isDigit hdigit) (by simp [notNumber c hc])
  noKeyword entry hmem _ hfits := by
    rw [String.toList_ofList] at hfits
    exact noKey entry ⟨hmem, hfits.trans (List.prefix_append _ _)⟩

theorem Lexeme.writable (h : Lexeme kind text span rest) :
    Token.Word.Writable ⟨kind, String.ofList text⟩ := by
  cases h with
  | key longest shown => exact .key (by simpa using longest.1.1) shown
  | number _ run => exact .number rfl ⟨by simpa using run.nonempty, by simpa using run.inside⟩
  | string _ closed inLine => exact .string rfl ⟨by simpa using closed, by simpa using inLine⟩
  | identifier noKey notNumber run => exact .identifier rfl (isName_of_wholeRun noKey notNumber run)

end Lexing

-- ---------------------------------------------------------------------------
-- The words of a text
-- ---------------------------------------------------------------------------

namespace Token

def words (tokens : List Token) : List Word :=
  (tokens.filter (·.kind ≠ .endOfFile)).map word

theorem writable_of_ofSource {tokens : List Token} (h : Token.ofSource source = .ok tokens) :
    ∀ word ∈ words tokens, word.Writable := by
  intro word hword
  obtain ⟨token, htoken, rfl⟩ := List.mem_map.1 hword
  obtain ⟨hmem, hkind⟩ := List.mem_filter.1 htoken
  rcases (ofSource_eq_ok_iff.1 h).lexeme_of_mem hmem with hlast | ⟨text, span, rest, lexeme, htext⟩
  · exact absurd (congrArg Word.kind hlast) (of_decide_eq_true hkind)
  · rw [Token.word, htext]
    exact lexeme.writable

theorem map_word_of_ofSource {tokens : List Token} (h : Token.ofSource source = .ok tokens) :
    tokens.map word = words tokens ++ [Word.last] := by
  have hcut := ofSource_eq_ok_iff.1 h
  obtain ⟨shown, last, rfl, hlast, hshown⟩ := hcut.endsOnce
  rcases hcut.lexeme_of_mem (List.mem_append_right _ (List.mem_singleton_self last)) with
    hword | ⟨_, _, _, lexeme, _⟩
  · rw [words, hcut.endsOnce.filter_eq, List.dropLast_concat, List.map_append, List.map_singleton,
      hword]
  · exact absurd hlast lexeme.kind_ne_endOfFile

/-- Any rendering of words that can be written has these words. The words of any
text can be written, so any rendering of them has the words of the text again. -/
theorem rendering_survives :
    (∀ words rendered, (∀ word ∈ words, Word.Writable word) → Word.Written words rendered →
      (Token.ofSource rendered).map (List.map word) = .ok (words ++ [Word.last])) ∧
    ∀ source tokens, Token.ofSource source = .ok tokens →
      (∀ token ∈ tokens, token.kind ≠ .endOfFile → token.word.Writable) ∧
      ∀ rendered, Word.Written (words tokens) rendered →
        (Token.ofSource rendered).map (List.map word) = .ok (tokens.map word) := by
  have hback (words : List Word) (rendered : List Char) (hw : ∀ word ∈ words, word.Writable)
      (h : Word.Written words rendered) :
      (Token.ofSource rendered).map (List.map word) = .ok (words ++ [Word.last]) := by
    obtain ⟨tokens, htokens, hmap⟩ := h.ofSource hw
    rw [htokens, Except.map, hmap]
  refine ⟨hback, fun source tokens h => ⟨fun token hmem hkind => ?_, fun rendered hrendered => ?_⟩⟩
  · refine writable_of_ofSource h _ (List.mem_map_of_mem (List.mem_filter.2 ⟨hmem, ?_⟩))
    simpa using hkind
  · rw [map_word_of_ofSource h]
    exact hback _ _ (writable_of_ofSource h) hrendered

/-- An identifier and a string with two blanks between them, and a text without
blanks that is read, rendered and read again. -/
theorem rendering_survives_glued :
    let name : Word := ⟨.identifier, "xесли"⟩
    let literal : Word := ⟨.string, "a // b"⟩
    let glued : List Token := [⟨.letWord, "пусть", ⟨1, 1⟩⟩, ⟨.identifier, "x", ⟨1, 6⟩⟩,
      ⟨.comparison, "===", ⟨1, 7⟩⟩, ⟨.assign, "=", ⟨1, 10⟩⟩, ⟨.endOfFile, "\x00", ⟨1, 15⟩⟩]
    (Token.ofSource "xесли\n\t\"a // b\"".toList).map (List.map word) =
      .ok [name, literal, Word.last] ∧
    Token.ofSource "пустьx====// c".toList = .ok glued ∧
    (∀ token ∈ glued, token.kind ≠ .endOfFile → token.word.Writable) ∧
    (Token.ofSource "пусть x === =".toList).map (List.map word) = .ok (glued.map word) := by
  intro name literal glued
  have hwritable : ∀ word ∈ [name, literal], word.Writable :=
    List.forall_mem_cons.2 ⟨.identifier rfl (by decide +kernel),
      List.forall_mem_singleton.2 (.string rfl (by decide))⟩
  have hwritten : Word.Written [name, literal]
      (name.span ++ (['\n', '\t'] ++ (literal.span ++ ([] ++ [])))) :=
    .cons (List.forall_mem_cons.2 ⟨rfl, List.forall_mem_singleton.2 rfl⟩) (by simp)
      (.cons (List.forall_mem_nil _) (by simp) .nil)
  have hrendered : name.span ++ (['\n', '\t'] ++ (literal.span ++ ([] ++ []))) =
      "xесли\n\t\"a // b\"".toList := by
    simp [Word.span, name, literal]
  have hglued : Token.ofSource "пустьx====// c".toList = .ok glued := by
    decide +kernel
  have hspaced : Word.spaced (words glued) = "пусть x === =".toList := by
    decide
  obtain ⟨hreads, hreturns⟩ := rendering_survives
  have hwords := hreads _ _ hwritable hwritten
  have hsecond := (hreturns _ _ hglued).2 _ (Word.written_spaced _)
  rw [hrendered] at hwords
  rw [hspaced] at hsecond
  exact ⟨hwords, hglued, (hreturns _ _ hglued).1, hsecond⟩

end Token

end Rech
