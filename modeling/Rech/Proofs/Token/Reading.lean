import Mathlib.Data.List.TakeWhile
import Rech.Proofs.Token.Blanks
import Rech.Token.Reader

/-!
# Reading gaps and lexemes

A reader that came over a text by advancing stands behind it (`Reader.behind`).
From there the reader skips exactly a gap, up to a lexeme or to the end, and
reads exactly a lexeme, unless a string in front is not closed.
-/

namespace Rech

def Reader.behind (before rest : List Char) : Reader := ⟨rest, before.length, .behind before⟩

theorem Reader.behind_nil (source : List Char) : behind [] source = ofText source := rfl

@[simp] theorem Reader.rest_behind (before rest : List Char) :
    (behind before rest).rest = rest := rfl

@[simp] theorem Reader.place_behind (before rest : List Char) :
    (behind before rest).place = .behind before := rfl

theorem Reader.advance_behind (before : List Char) (c : Char) (rest : List Char) :
    (behind before (c :: rest)).advance = behind (before ++ [c]) rest := by
  simp [behind, advance, Place.after_behind]

theorem Reader.advanceBy_behind (before span rest : List Char) :
    (behind before (span ++ rest)).advanceBy span.length = behind (before ++ span) rest := by
  induction span generalizing before with
  | nil => simp [advanceBy]
  | cons c span ih =>
    rw [List.cons_append, List.length_cons, advanceBy, advance_behind, ih, List.append_assoc,
      List.singleton_append]

namespace Lexing

-- ---------------------------------------------------------------------------
-- Lexemes
-- ---------------------------------------------------------------------------

theorem WholeRun.takeWhile (h : WholeRun inRun run rest) :
    (run ++ rest).takeWhile inRun = run := by
  rw [List.takeWhile_append_of_pos h.inside]
  cases rest with
  | nil => simp
  | cons c rest => simp [h.maximal c rfl]

theorem wholeRun_takeWhile {inRun : Char → Bool} {c : Char} (h : inRun c = true)
    (rest : List Char) :
    WholeRun inRun ((c :: rest).takeWhile inRun) ((c :: rest).dropWhile inRun) where
  nonempty := by simp [h]
  inside _ hd := List.mem_takeWhile_imp hd
  maximal d hd := by
    have := List.head?_dropWhile_not inRun (c :: rest)
    rw [Option.mem_def.1 hd] at this
    simpa using this

theorem readRun_behind (h : WholeRun inRun run rest) :
    (Reader.behind before (run ++ rest)).readRun kind inRun =
      (⟨kind, String.ofList run, .behind before⟩, .behind (before ++ run) rest) := by
  simp only [Reader.readRun, Reader.rest_behind, Reader.place_behind, h.takeWhile,
    Reader.advanceBy_behind]

def inString (c : Char) : Bool := c != '"' && c != '\n'

theorem readString_behind (hin : ∀ c ∈ text, inString c = true) :
    (Reader.behind before ('"' :: (text ++ '"' :: rest))).readString =
      (.ok ⟨.string, String.ofList text, .behind before⟩,
        .behind (before ++ '"' :: (text ++ ['"'])) rest) := by
  have hrun : (text ++ '"' :: rest).takeWhile (fun c => c != '"' && c != '\n') = text := by
    change (text ++ '"' :: rest).takeWhile inString = text
    rw [List.takeWhile_append_of_pos hin]
    simp [inString]
  simp [Reader.readString, Reader.advance_behind, hrun, Reader.advanceBy_behind]

theorem readLexeme_of_key {c : Char} (h : Token.key? (c :: rest) = some (key, kind)) :
    (Reader.behind before (c :: rest)).readLexeme =
      (.ok ⟨kind, String.ofList key, .behind before⟩,
        (Reader.behind before (c :: rest)).advanceBy key.length) := by
  simp [Reader.readLexeme, h]

theorem readLexeme_of_noKey {c : Char} (h : NoKey (c :: rest)) :
    (Reader.behind before (c :: rest)).readLexeme =
      if Token.isNumeric c then
        ((Reader.behind before (c :: rest)).readRun .number Token.isNumeric).map .ok id
      else if c = '"' then (Reader.behind before (c :: rest)).readString
      else ((Reader.behind before (c :: rest)).readRun .identifier Token.isIdentifierChar).map
        .ok id := by
  simp only [Reader.readLexeme, Reader.rest_behind, key?_eq_none_iff.2 h]
  rfl

theorem LongestKey.exists_cons (h : LongestKey text entry) : ∃ c span, entry.1 = c :: span :=
  List.exists_cons_of_ne_nil (Token.ne_nil_of_mem_table _ h.1.1)

theorem WholeRun.exists_cons (h : WholeRun inRun run rest) :
    ∃ c tail, run = c :: tail ∧ inRun c = true := by
  obtain ⟨c, tail, rfl⟩ := List.exists_cons_of_ne_nil h.nonempty
  exact ⟨c, tail, rfl, h.inside c List.mem_cons_self⟩

theorem not_isIdentifierChar_quote : Token.isIdentifierChar '"' = false := by
  decide +kernel

theorem readLexeme_behind (h : Lexeme kind text span rest) :
    (Reader.behind before (span ++ rest)).readLexeme =
      (.ok ⟨kind, String.ofList text, .behind before⟩, .behind (before ++ span) rest) := by
  cases h with
  | key longest shown =>
    obtain ⟨c, tail, hspan⟩ := longest.exists_cons
    obtain rfl : text = c :: tail := hspan
    rw [List.cons_append] at longest ⊢
    rw [readLexeme_of_key (key?_eq_some_iff.2 longest), ← List.cons_append,
      Reader.advanceBy_behind]
  | number noKey run =>
    obtain ⟨c, tail, rfl, hc⟩ := run.exists_cons
    rw [List.cons_append] at noKey ⊢
    rw [readLexeme_of_noKey noKey, if_pos hc, ← List.cons_append, readRun_behind run]
    rfl
  | string noKey closed inLine =>
    have hin : ∀ c ∈ text, inString c = true := by
      intro c hc
      simp [inString, ne_of_mem_of_not_mem hc closed, ne_of_mem_of_not_mem hc inLine]
    have hquote : Token.isNumeric '"' = false := by decide
    rw [List.cons_append, List.append_assoc, List.singleton_append, readLexeme_of_noKey noKey,
      hquote]
    simp [readString_behind hin]
  | identifier noKey notNumber run =>
    obtain ⟨c, tail, rfl, hc⟩ := run.exists_cons
    have hquote : c ≠ '"' := by
      rintro rfl
      simp [not_isIdentifierChar_quote] at hc
    rw [List.cons_append] at noKey ⊢
    rw [readLexeme_of_noKey noKey, notNumber c rfl, if_neg hquote, ← List.cons_append,
      readRun_behind run]
    rfl

/-- A string that its line does not close stands in front. -/
structure Unclosed (text rest : List Char) : Prop where
  noKey : NoKey ('"' :: (text ++ rest))
  inside : ∀ c ∈ text, inString c = true
  stopped : ∀ c ∈ rest.head?, c = '\n'

theorem readLexeme_unclosed (h : Unclosed text rest) :
    (Reader.behind before ('"' :: (text ++ rest))).readLexeme =
      (.error ⟨.unclosedString, some (.behind before)⟩,
        .behind (before ++ '"' :: text) rest) := by
  have hrun : (text ++ rest).takeWhile (fun c => c != '"' && c != '\n') = text := by
    change (text ++ rest).takeWhile inString = text
    rw [List.takeWhile_append_of_pos h.inside]
    cases rest with
    | nil => simp
    | cons c rest => simp [inString, h.stopped c rfl]
  have hstop : rest.head? ≠ some '"' := fun hq => absurd (h.stopped _ hq) (by decide)
  have hquote : Token.isNumeric '"' = false := by decide
  rw [readLexeme_of_noKey h.noKey, hquote]
  simp [Reader.readString, Reader.advance_behind, hrun, Reader.advanceBy_behind, hstop]

theorem wholeRun_of_noKey {inRun : Char → Bool} {c : Char} (noKey : NoKey (c :: rest))
    (h : inRun c = true) : ∃ span tail, c :: rest = span ++ tail ∧ NoKey (span ++ tail) ∧
      span.head? = some c ∧ WholeRun inRun span tail := by
  have hsplit := List.takeWhile_append_dropWhile (p := inRun) (l := c :: rest)
  exact ⟨_, _, hsplit.symm, hsplit.symm ▸ noKey, by simp [h], wholeRun_takeWhile h rest⟩

theorem exists_lexeme_of_beginsLexeme (h : Token.beginsLexeme source = true) :
    (∃ kind text span rest, source = span ++ rest ∧ Lexeme kind text span rest) ∨
      ∃ text rest, source = '"' :: (text ++ rest) ∧ Unclosed text rest := by
  cases source with
  | nil => simp [Token.beginsLexeme] at h
  | cons c rest =>
    cases hk : Token.key? (c :: rest) with
    | some entry =>
      obtain ⟨key, kind⟩ := entry
      have hlongest := key?_eq_some_iff.1 hk
      obtain ⟨tail, htail⟩ := hlongest.1.2
      rw [Token.beginsLexeme, hk] at h
      refine .inl ⟨kind, key, key, tail, htail.symm, .key (htail ▸ hlongest) ?_⟩
      simpa using h
    | none =>
      have noKey := key?_eq_none_iff.1 hk
      by_cases hnumber : Token.isNumeric c = true
      · obtain ⟨span, tail, hsplit, hnone, -, hrun⟩ := wholeRun_of_noKey noKey hnumber
        exact .inl ⟨_, span, span, tail, hsplit, .number hnone hrun⟩
      by_cases hquote : c = '"'
      · subst hquote
        have hsplit := List.takeWhile_append_dropWhile (p := inString) (l := rest)
        have hin : ∀ c ∈ rest.takeWhile inString, inString c = true :=
          fun _ hc => List.mem_takeWhile_imp hc
        have hstop := List.head?_dropWhile_not inString rest
        rw [← hsplit] at noKey ⊢
        cases htail : rest.dropWhile inString with
        | nil => exact .inr ⟨_, _, rfl, htail ▸ noKey, hin, by simp⟩
        | cons d tail =>
          rw [htail] at hstop noKey
          by_cases hd : d = '"'
          · subst hd
            refine .inl ⟨_, _, _, tail, ?_, .string noKey ?_ ?_⟩
            · simp
            · intro hmem
              simpa [inString] using hin _ hmem
            · intro hmem
              simpa [inString] using hin _ hmem
          · refine .inr ⟨_, _, rfl, noKey, hin, ?_⟩
            simpa [inString, hd] using hstop
      · have hid : Token.isIdentifierChar c = true := by
          simpa [Token.beginsLexeme, hk, hnumber, hquote] using h
        obtain ⟨span, tail, hsplit, hnone, hhead, hrun⟩ := wholeRun_of_noKey noKey hid
        refine .inl ⟨_, span, span, tail, hsplit, .identifier hnone ?_ hrun⟩
        simpa [hhead] using hnumber

-- ---------------------------------------------------------------------------
-- Gaps
-- ---------------------------------------------------------------------------

/-- The rest of a comment, and of the gap behind it. -/
inductive CommentRest : List Char → List Char → Prop
  | newline (inLine : '\n' ∉ text) (others : Gap gap rest) :
      CommentRest (text ++ '\n' :: gap) rest
  | last (inLine : '\n' ∉ text) : CommentRest text []

theorem CommentRest.cons (h : CommentRest text rest) {c : Char} (hc : c ≠ '\n') :
    CommentRest (c :: text) rest := by
  cases h with
  | newline inLine others =>
    rw [← List.cons_append]
    exact .newline (by simp [Ne.symm hc, inLine]) others
  | last inLine => exact .last (by simp [Ne.symm hc, inLine])

theorem CommentRest.gap (h : CommentRest text rest) {c : Char} {tail : List Char}
    (hslash : c :: (text ++ rest) = '/' :: '/' :: tail) : Gap (c :: text) rest := by
  obtain ⟨rfl, hsecond⟩ := List.cons.inj hslash
  cases h with
  | @newline inner rest gap inLine others =>
    cases inner with
    | nil => simp at hsecond
    | cons d inner =>
      obtain rfl : d = '/' := (List.cons.inj hsecond).1
      exact .comment (List.not_mem_of_not_mem_cons inLine) others
  | last inLine =>
    obtain rfl : text = '/' :: tail := by simpa using hsecond
    exact .lastComment (List.not_mem_of_not_mem_cons inLine)

theorem longestKey_comment (text : List Char) :
    LongestKey ('/' :: '/' :: text) (['/', '/'], .comment) :=
  key?_eq_some_iff.1 rfl

theorem eq_comment_of_mem_table : ∀ entry ∈ Token.table, entry.2 = .comment →
    entry = (['/', '/'], .comment) := by
  decide

theorem beginsComment_iff :
    Token.beginsComment text = true ↔ ∃ rest, text = '/' :: '/' :: rest := by
  constructor
  · intro h
    rw [Token.beginsComment] at h
    split at h
    next key kind hk =>
      have hlongest := key?_eq_some_iff.1 hk
      have hentry := eq_comment_of_mem_table _ hlongest.1.1 (by simpa using h)
      obtain ⟨rest, hrest⟩ := hlongest.1.2
      exact ⟨rest, by rw [← hrest, hentry]; rfl⟩
    next => simp at h
  · rintro ⟨rest, rfl⟩
    simp [Token.beginsComment, key?_eq_some_iff.2 (longestKey_comment rest)]

theorem noRule_of_not_beginsLexeme {c : Char} (hcomment : Token.beginsComment (c :: rest) = false)
    (h : Token.beginsLexeme (c :: rest) = false) : NoRule c rest := by
  rw [Token.beginsComment] at hcomment
  rw [Token.beginsLexeme] at h
  cases hk : Token.key? (c :: rest) with
  | some entry => simp_all
  | none =>
    simp only [hk, Bool.or_eq_false_iff, decide_eq_false_iff_not] at h
    exact ⟨key?_eq_none_iff.1 hk, h.1.1, h.1.2, h.2⟩

theorem exists_gap (source : List Char) : ∃ skipped rest, source = skipped ++ rest ∧
    Gap skipped rest ∧ Token.gap false source = skipped.length ∧
      (rest = [] ∨ Token.beginsLexeme rest = true) := by
  suffices h : ∀ inComment source, ∃ skipped rest, source = skipped ++ rest ∧
      (if inComment then CommentRest skipped rest else Gap skipped rest) ∧
      Token.gap inComment source = skipped.length ∧
      (rest = [] ∨ Token.beginsLexeme rest = true) from h false source
  intro inComment source
  fun_induction Token.gap inComment source with
  | case1 inComment =>
    refine ⟨[], [], rfl, ?_, rfl, .inl rfl⟩
    cases inComment with
    | true => exact .last List.not_mem_nil
    | false => exact .none
  | case2 c rest ih =>
    obtain ⟨skipped, rest, rfl, hskipped, hlength, hrest⟩ := ih
    refine ⟨c :: skipped, rest, rfl, ?_, by rw [hlength, List.length_cons], hrest⟩
    by_cases hc : c = '\n'
    -- The newline belongs to the comment, and behind it a gap goes on.
    · subst hc
      rw [← List.nil_append ('\n' :: skipped)]
      exact .newline List.not_mem_nil (by simpa using hskipped)
    · exact .cons (by simpa [hc] using hskipped) hc
  | case3 c rest hspace ih =>
    obtain ⟨skipped, rest, rfl, hskipped, hlength, hrest⟩ := ih
    exact ⟨c :: skipped, rest, rfl, .blank hspace hskipped, by rw [hlength, List.length_cons],
      hrest⟩
  | case4 c rest hspace hcomment ih =>
    obtain ⟨skipped, rest, rfl, hskipped, hlength, hrest⟩ := ih
    obtain ⟨tail, htail⟩ := beginsComment_iff.1 hcomment
    -- What is skipped behind the first slash is the rest of a comment, second slash included.
    refine ⟨c :: skipped, rest, rfl, ?_, by rw [hlength, List.length_cons], hrest⟩
    exact hskipped.gap htail
  | case5 c rest hspace hcomment hlexeme =>
    exact ⟨[], c :: rest, rfl, .none, rfl, .inr hlexeme⟩
  | case6 c rest hspace hcomment hlexeme ih =>
    obtain ⟨skipped, rest, rfl, hskipped, hlength, hrest⟩ := ih
    refine ⟨c :: skipped, rest, rfl, .dropped ?_ hskipped, by rw [hlength, List.length_cons],
      hrest⟩
    exact noRule_of_not_beginsLexeme (by simpa using hcomment) (by simpa using hlexeme)

theorem NoRule.beginsLexeme (h : NoRule c rest) : Token.beginsLexeme (c :: rest) = false := by
  simp [Token.beginsLexeme, key?_eq_none_iff.2 h.noKey, h.notNumber, h.notString, h.notIdentifier]

theorem beginsLexeme_of_beginsComment (h : Token.beginsComment text = true) :
    Token.beginsLexeme text = false := by
  obtain ⟨rest, rfl⟩ := beginsComment_iff.1 h
  rw [Token.beginsLexeme, key?_eq_some_iff.2 (longestKey_comment rest)]
  rfl

theorem beginsComment_of_noKey (h : NoKey text) : Token.beginsComment text = false := by
  rw [Token.beginsComment, key?_eq_none_iff.2 h]

theorem Lexeme.beginsLexeme (h : Lexeme kind text span rest) :
    Token.beginsLexeme (span ++ rest) = true := by
  cases h with
  | key longest shown =>
    obtain ⟨c, tail, hspan⟩ := longest.exists_cons
    obtain rfl : text = c :: tail := hspan
    rw [List.cons_append] at longest ⊢
    simpa [Token.beginsLexeme, key?_eq_some_iff.2 longest] using shown
  | number noKey run =>
    obtain ⟨c, tail, rfl, hc⟩ := run.exists_cons
    rw [List.cons_append] at noKey ⊢
    simp [Token.beginsLexeme, key?_eq_none_iff.2 noKey, hc]
  | string noKey => simp [Token.beginsLexeme, key?_eq_none_iff.2 noKey]
  | identifier noKey notNumber run =>
    obtain ⟨c, tail, rfl, hc⟩ := run.exists_cons
    rw [List.cons_append] at noKey ⊢
    simp [Token.beginsLexeme, key?_eq_none_iff.2 noKey, hc]

theorem gap_newline (h : '\n' ∉ text) :
    Token.gap true (text ++ '\n' :: rest) = text.length + (1 + Token.gap false rest) := by
  induction text with
  | nil => simp [Token.gap, Nat.add_comm]
  | cons c text ih =>
    obtain ⟨hc, hin⟩ := List.ne_and_not_mem_of_not_mem_cons h
    have hne : (c != '\n') = true := by simpa using Ne.symm hc
    rw [List.cons_append, Token.gap, hne, ih hin, List.length_cons]
    omega

theorem gap_last (h : '\n' ∉ text) : Token.gap true text = text.length := by
  induction text with
  | nil => rfl
  | cons c text ih =>
    obtain ⟨hc, hin⟩ := List.ne_and_not_mem_of_not_mem_cons h
    have hne : (c != '\n') = true := by simpa using Ne.symm hc
    rw [Token.gap, hne, ih hin, List.length_cons]

theorem gap_comment (text : List Char) :
    Token.gap false ('/' :: '/' :: text) = Token.gap true text + 2 := by
  have hcomment := beginsComment_iff.2 ⟨text, rfl⟩
  have hspace : Token.isSpace '/' = false := by decide
  simp [Token.gap, hspace, hcomment]

theorem gap_of_beginsLexeme (h : Token.beginsLexeme text = true) : Token.gap false text = 0 := by
  cases text with
  | nil => rfl
  | cons c rest =>
    have hspace : Token.isSpace c ≠ true := fun hspace => by
      simp [(noRule_of_isSpace hspace rest).beginsLexeme] at h
    have hcomment : Token.beginsComment (c :: rest) ≠ true := fun hcomment => by
      simp [beginsLexeme_of_beginsComment hcomment] at h
    simp [Token.gap, hspace, hcomment, h]

theorem gap_eq (h : Gap skipped rest) (hrest : rest = [] ∨ Token.beginsLexeme rest = true) :
    Token.gap false (skipped ++ rest) = skipped.length := by
  induction h with
  | none =>
    rcases hrest with rfl | hlexeme
    · rfl
    · exact gap_of_beginsLexeme hlexeme
  | blank blank _ ih => simp [Token.gap, blank, ih hrest]
  | comment inLine _ ih =>
    simp only [List.cons_append, List.append_assoc, gap_comment, gap_newline inLine, ih hrest,
      List.length_cons, List.length_append]
    omega
  | lastComment inLine => simp [gap_comment, gap_last inLine]
  | @dropped c gap rest noRule _ ih =>
    by_cases hspace : Token.isSpace c = true
    · simp [Token.gap, hspace, ih hrest]
    · have hcomment := beginsComment_of_noKey noRule.noKey
      simp [Token.gap, hspace, hcomment, noRule.beginsLexeme, ih hrest]

theorem skipGap_behind (h : Gap skipped rest) (hrest : rest = [] ∨ Token.beginsLexeme rest = true) :
    (Reader.behind before (skipped ++ rest)).skipGap = .behind (before ++ skipped) rest := by
  rw [Reader.skipGap, Reader.rest_behind, gap_eq h hrest, Reader.advanceBy_behind]

end Lexing

end Rech
