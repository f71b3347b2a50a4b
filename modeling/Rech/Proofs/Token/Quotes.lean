import Mathlib.Algebra.Ring.Parity
import Rech.Proofs.Session.BraceBalance

/-!
# Unbalanced quotes

In a line two slashes are a comment if an even number of quotes stands before
them. Without its comment, a line can be cut if it has an even number of quotes.
With an odd number it breaks off at the last of them. Strings and comments end in
their line, so a text breaks off in the first line that does.
-/

namespace Rech

-- ---------------------------------------------------------------------------
-- Comments
-- ---------------------------------------------------------------------------

/-- What stands before the first two slashes that have an even number of quotes
before them in their line, where `before` is the line up to here. -/
def uncommented (before : List Char) : List Char → List Char
  | [] => []
  | c :: rest =>
    if ['/', '/'] <+: c :: rest ∧ Even (before.count '"') then []
    else c :: uncommented (before ++ [c]) rest

/-- Slashes in a string are no comment. -/
example : uncommented [] "x\"//\" // y\"".toList = "x\"//\" ".toList := by decide

/-- The number of quotes in a line without its comment. -/
def quotes (line : List Char) : Nat := (uncommented [] line).count '"'

theorem isPrefix_uncommented (before text : List Char) : uncommented before text <+: text := by
  induction text generalizing before with
  | nil => exact List.prefix_refl _
  | cons c text ih =>
    rw [uncommented]
    split
    · exact List.nil_prefix
    · exact (List.prefix_cons_inj c).2 (ih _)

theorem uncommented_comment (even : Even (before.count '"')) (text : List Char) :
    uncommented before ('/' :: '/' :: text) = [] :=
  if_pos ⟨List.prefix_append ['/', '/'] text, even⟩

def Uncommented (before span rest : List Char) : Prop :=
  uncommented before (span ++ rest) = span ++ uncommented (before ++ span) rest

namespace Uncommented

theorem nil : Uncommented before [] rest := by
  simp [Uncommented]

theorem cons {c : Char} (h : ¬(['/', '/'] <+: c :: (span ++ rest) ∧ Even (before.count '"')))
    (others : Uncommented (before ++ [c]) span rest) : Uncommented before (c :: span) rest := by
  rw [Uncommented, List.append_assoc, List.singleton_append] at others
  rw [Uncommented, List.cons_append, uncommented, if_neg h, others, List.cons_append]

theorem append (h : Uncommented before span (other ++ rest))
    (h' : Uncommented (before ++ span) other rest) : Uncommented before (span ++ other) rest := by
  rw [Uncommented, List.append_assoc] at h'
  rw [Uncommented, List.append_assoc, h, h', List.append_assoc]

theorem of_ne_slash (h : ∀ c ∈ span, c ≠ '/') : Uncommented before span rest := by
  induction span generalizing before with
  | nil => exact nil
  | cons c span ih =>
    obtain ⟨hc, hspan⟩ := List.forall_mem_cons.1 h
    refine cons ?_ (ih hspan)
    rintro ⟨hfits, -⟩
    exact hc (List.cons_prefix_cons.1 hfits).1.symm

theorem singleton {c : Char} (h : c ≠ '/') : Uncommented before [c] rest :=
  of_ne_slash (List.forall_mem_singleton.2 h)

theorem of_odd (odd : Odd (before.count '"')) (closed : '"' ∉ span) :
    Uncommented before span rest := by
  induction span generalizing before with
  | nil => exact nil
  | cons c span ih =>
    obtain ⟨hc, hspan⟩ := List.ne_and_not_mem_of_not_mem_cons closed
    refine cons ?_ (ih ?_ hspan)
    · rintro ⟨-, even⟩
      exact Nat.not_even_iff_odd.2 odd even
    · simpa [List.count_append, Ne.symm hc] using odd

end Uncommented

-- ---------------------------------------------------------------------------
-- Gaps and lexemes
-- ---------------------------------------------------------------------------

theorem ne_slash_of_not_counted {c : Char} (h : ¬Counted c) : c ≠ '/' := by
  rintro rfl
  exact h (by decide)

theorem quote_not_mem_of_not_counted {span : List Char} (h : ∀ c ∈ span, ¬Counted c) : '"' ∉ span :=
  fun hmem => h _ hmem (by decide)

theorem even_count_append {c : Char} (h : Even (before.count '"')) (hc : ¬Counted c) :
    Even ((before ++ [c]).count '"') := by
  have hquote : '"' ∉ [c] := quote_not_mem_of_not_counted (List.forall_mem_singleton.2 hc)
  rw [List.count_append, List.count_eq_zero.2 hquote]
  exact h

namespace Lexing

theorem Gap.not_counted (h : Gap skipped rest) (hline : '\n' ∉ skipped) (hrest : rest ≠ []) :
    ∀ c ∈ skipped, ¬Counted c := by
  induction h with
  | none => exact List.forall_mem_nil _
  | blank blank _ ih =>
    exact List.forall_mem_cons.2
      ⟨not_counted_of_isSpace blank, ih (List.not_mem_of_not_mem_cons hline) hrest⟩
  | comment => simp at hline
  | lastComment => exact absurd rfl hrest
  | dropped noRule _ ih =>
    exact List.forall_mem_cons.2
      ⟨noRule.not_counted, ih (List.not_mem_of_not_mem_cons hline) hrest⟩

theorem quote_not_mem_cons {c : Char} (hc : ¬Counted c)
    (h : '"' ∉ uncommented (before ++ [c]) rest) : '"' ∉ uncommented before (c :: rest) := by
  have hkept : Uncommented before [c] rest := .singleton (ne_slash_of_not_counted hc)
  have hquote := quote_not_mem_of_not_counted (List.forall_mem_singleton.2 hc)
  rw [← List.singleton_append, hkept, List.mem_append, not_or]
  exact ⟨hquote, h⟩

theorem Gap.quote_not_mem (h : Gap skipped rest) (hline : '\n' ∉ skipped) (hrest : rest = [])
    (even : Even (before.count '"')) : '"' ∉ uncommented before skipped := by
  induction h generalizing before with
  | none => exact List.not_mem_nil
  | blank blank _ ih =>
    have hc := not_counted_of_isSpace blank
    exact quote_not_mem_cons hc
      (ih (List.not_mem_of_not_mem_cons hline) hrest (even_count_append even hc))
  | comment => simp at hline
  | lastComment => simp [uncommented_comment even]
  | dropped noRule _ ih =>
    have hc := noRule.not_counted
    exact quote_not_mem_cons hc
      (ih (List.not_mem_of_not_mem_cons hline) hrest (even_count_append even hc))

theorem Lexeme.uncommented (h : Lexeme kind text span rest) (even : Even (before.count '"')) :
    Uncommented before span rest ∧ Even (span.count '"') := by
  have hplain (hspan : ∀ c ∈ span, ¬Counted c) :
      Uncommented before span rest ∧ Even (span.count '"') := by
    refine ⟨.of_ne_slash fun c hc => ne_slash_of_not_counted (hspan c hc), ?_⟩
    rw [List.count_eq_zero.2 (quote_not_mem_of_not_counted hspan)]
    exact Even.zero
  cases h with
  | key longest shown =>
    rcases spelling_cases _ longest.1.1 with hentry | hentry | hentry | hcomment | ⟨hspan, -⟩
    · obtain ⟨rfl, rfl⟩ := Prod.mk.inj hentry
      refine ⟨.cons ?_ .nil, by decide⟩
      rintro ⟨hfits, -⟩
      obtain ⟨tail, htail⟩ := (List.cons_prefix_cons.1 hfits).2
      exact LongestKey.head?_ne_slash longest (by simp [← htail])
    · obtain ⟨rfl, rfl⟩ := Prod.mk.inj hentry
      exact ⟨.singleton (by decide), by decide⟩
    · obtain ⟨rfl, rfl⟩ := Prod.mk.inj hentry
      exact ⟨.singleton (by decide), by decide⟩
    · exact absurd hcomment shown
    · exact hplain (by simpa using hspan)
  | number _ run => exact hplain fun c hc => not_counted_of_isNumeric (run.inside c hc)
  | string _ closed =>
    have hopening : Uncommented before ['"'] (text ++ ['"'] ++ rest) := .singleton (by decide)
    have hclosing (before : List Char) : Uncommented before ['"'] rest := .singleton (by decide)
    have odd : Odd ((before ++ ['"']).count '"') := by
      rw [List.count_append]
      exact even.add_one
    refine ⟨hopening.append ((Uncommented.of_odd odd closed).append (hclosing _)), ?_⟩
    simp [List.count_eq_zero.2 closed]
  | identifier _ _ run => exact hplain fun c hc => not_counted_of_isIdentifierChar (run.inside c hc)

theorem Lexeme.uncommented_gap (h : Lexeme kind text span rest)
    (gap : Gap skipped (span ++ rest)) (hline : '\n' ∉ skipped) (even : Even (before.count '"')) :
    Uncommented before (skipped ++ span) rest ∧ Even ((before ++ (skipped ++ span)).count '"') := by
  have hskipped := gap.not_counted hline (by simp [h.span_ne_nil])
  have hgap : Uncommented before skipped (span ++ rest) :=
    .of_ne_slash fun c hc => ne_slash_of_not_counted (hskipped c hc)
  have heven : Even ((before ++ skipped).count '"') := by
    rwa [List.count_append, List.count_eq_zero.2 (quote_not_mem_of_not_counted hskipped)]
  obtain ⟨hspan, heven'⟩ := h.uncommented heven
  refine ⟨hgap.append hspan, ?_⟩
  rw [← List.append_assoc, List.count_append]
  exact heven.add heven'

-- ---------------------------------------------------------------------------
-- One line
-- ---------------------------------------------------------------------------

theorem Segmented.even_quotes (h : Segmented before source tokens) (hline : '\n' ∉ source)
    (even : Even (before.count '"')) :
    Even ((before ++ uncommented before source).count '"') := by
  induction h with
  | last gap =>
    rwa [List.count_append, List.count_eq_zero.2 (gap.quote_not_mem hline rfl even)]
  | token gap lexeme _ ih =>
    simp only [List.mem_append, not_or] at hline
    obtain ⟨hspan, heven⟩ := lexeme.uncommented_gap gap hline.1 even
    rw [← List.append_assoc _ _ (_ : List Char), hspan, ← List.append_assoc]
    exact ih hline.2.2 heven

theorem Broken.exists_quote (h : Broken before source tokens place) (hline : '\n' ∉ source)
    (even : Even (before.count '"')) :
    ∃ front back, before ++ uncommented before source = front ++ '"' :: back ∧ '"' ∉ back ∧
      Even (front.count '"') ∧ place = .behind front := by
  induction h with
  | @unclosed skipped text rest before gap unclosed =>
    simp only [List.mem_append, List.mem_cons, not_or] at hline
    obtain ⟨hline, -, -, hrest⟩ := hline
    -- In a single line an unclosed string reaches to the end.
    obtain rfl : rest = [] := by
      cases rest with
      | nil => rfl
      | cons c rest => exact absurd (unclosed.stopped c rfl ▸ List.mem_cons_self) hrest
    have hclosed : '"' ∉ text := fun hmem => by simpa [inString] using unclosed.inside _ hmem
    have hskipped := gap.not_counted hline (List.cons_ne_nil _ _)
    have heven : Even ((before ++ skipped).count '"') := by
      rwa [List.count_append, List.count_eq_zero.2 (quote_not_mem_of_not_counted hskipped)]
    have odd : Odd ((before ++ skipped ++ ['"']).count '"') := by
      rw [List.count_append]
      exact heven.add_one
    have hgap : Uncommented before skipped ('"' :: (text ++ [])) :=
      .of_ne_slash fun c hc => ne_slash_of_not_counted (hskipped c hc)
    have hopening : Uncommented (before ++ skipped) ['"'] (text ++ []) := .singleton (by decide)
    have hstring : Uncommented (before ++ skipped ++ ['"']) text [] := .of_odd odd hclosed
    refine ⟨before ++ skipped, text, ?_, hclosed, heven, rfl⟩
    rw [hgap, ← List.singleton_append, hopening, hstring, uncommented]
    simp
  | token gap lexeme _ ih =>
    simp only [List.mem_append, not_or] at hline
    obtain ⟨hspan, heven⟩ := lexeme.uncommented_gap gap hline.1 even
    rw [← List.append_assoc _ _ (_ : List Char), hspan, ← List.append_assoc]
    exact ih hline.2.2 heven

theorem exists_last_quote {text : List Char} (h : '"' ∈ text) :
    ∃ front back, text = front ++ '"' :: back ∧ '"' ∉ back := by
  obtain ⟨back, front, hsplit, hback⟩ := List.eq_append_cons_of_mem (List.mem_reverse.2 h)
  refine ⟨front.reverse, back.reverse, ?_, by simpa using hback⟩
  rw [← List.reverse_reverse text, hsplit]
  simp

theorem eq_of_last_quote {front front' back back' : List Char}
    (h : front ++ '"' :: back = front' ++ '"' :: back') (hback : '"' ∉ back)
    (hback' : '"' ∉ back') : front = front' := by
  rcases List.append_eq_append_iff.1 h with
    ⟨_ | ⟨c, more⟩, rfl, hrest⟩ | ⟨_ | ⟨c, more⟩, rfl, hrest⟩
  · exact (List.append_nil front).symm
  · exact absurd (by simp [(List.cons.inj hrest).2]) hback
  · exact List.append_nil front'
  · exact absurd (by simp [(List.cons.inj hrest).2]) hback'

theorem segmented_line (hline : '\n' ∉ line) (even : Even (quotes line)) :
    ∃ tokens, Segmented [] line tokens := by
  rcases segmented_or_broken [] line with hcut | ⟨tokens, place, hbroken⟩
  · exact hcut
  · obtain ⟨front, back, hsplit, hback, hfront, -⟩ := hbroken.exists_quote hline Even.zero
    rw [quotes, ← List.nil_append (uncommented [] line), hsplit, List.count_append,
      List.count_cons_self, List.count_eq_zero.2 hback, ← Nat.not_odd_iff_even] at even
    exact absurd hfront.add_one even

theorem broken_line (hline : '\n' ∉ line) (hsplit : uncommented [] line = front ++ '"' :: back)
    (hback : '"' ∉ back) (odd : Odd (quotes line)) :
    ∃ tokens, Broken [] line tokens ⟨1, front.length + 1⟩ := by
  rcases segmented_or_broken [] line with ⟨tokens, hcut⟩ | ⟨tokens, place, hbroken⟩
  · exact absurd (hcut.even_quotes hline Even.zero) (Nat.not_even_iff_odd.2 odd)
  · obtain ⟨front', back', hsplit', hback', -, rfl⟩ := hbroken.exists_quote hline Even.zero
    rw [List.nil_append, hsplit] at hsplit'
    obtain rfl := eq_of_last_quote hsplit' hback hback'
    have hfront : '\n' ∉ front := fun hmem =>
      hline ((isPrefix_uncommented [] line).subset (hsplit ▸ List.mem_append_left _ hmem))
    have hplace : Place.behind front = ⟨1, front.length + 1⟩ := by
      simp [Place.behind_of_inLine hfront, Place.indent, Place.start, Int.add_comm]
    exact ⟨tokens, hplace ▸ hbroken⟩

-- ---------------------------------------------------------------------------
-- All lines
-- ---------------------------------------------------------------------------

abbrev ofLines (lines : List (List Char)) : List Char := ['\n'].intercalate lines

theorem ofLines_cons {lines : List (List Char)} (h : lines ≠ []) (line : List Char) :
    ofLines (line :: lines) = line ++ '\n' :: ofLines lines := by
  simp [ofLines, List.intercalate_cons_of_ne_nil h]

theorem newline_not_mem_splitOn (source : List Char) :
    ∀ line ∈ source.splitOn '\n', '\n' ∉ line := by
  induction source with
  | nil => simp
  | cons c source ih =>
    rw [List.splitOn_cons_eq_if_modifyHead]
    split
    next => exact List.forall_mem_cons.2 ⟨List.not_mem_nil, ih⟩
    next hc =>
      obtain ⟨line, lines, hlines⟩ := List.exists_cons_of_ne_nil (List.splitOn_ne_nil '\n' source)
      rw [hlines] at ih ⊢
      obtain ⟨hline, hothers⟩ := List.forall_mem_cons.1 ih
      refine List.forall_mem_cons.2 ⟨?_, hothers⟩
      rw [List.mem_cons, not_or]
      exact ⟨fun h => hc (beq_iff_eq.2 h.symm), hline⟩

theorem segmented_lines (inLine : ∀ line ∈ lines, '\n' ∉ line)
    (even : ∀ line ∈ lines, Even (quotes line)) (hne : lines ≠ []) :
    ∃ tokens, Segmented [] (ofLines lines) tokens := by
  induction lines with
  | nil => exact absurd rfl hne
  | cons line lines ih =>
    obtain ⟨hline, hlines⟩ := List.forall_mem_cons.1 inLine
    obtain ⟨heven, hevens⟩ := List.forall_mem_cons.1 even
    obtain ⟨tokens, hcut⟩ := segmented_line hline heven
    by_cases hlast : lines = []
    · rw [hlast, ofLines, List.intercalate_singleton]
      exact ⟨tokens, hcut⟩
    obtain ⟨others, hothers⟩ := ih hlines hevens hlast
    rw [ofLines_cons hlast]
    exact ⟨_, hcut.join (hothers.behind_newline line)⟩

theorem broken_lines (inLine : ∀ line ∈ earlier, '\n' ∉ line)
    (even : ∀ line ∈ earlier, Even (quotes line)) (h : Broken [] line tokens place)
    (later : List (List Char)) :
    ∃ tokens, Broken [] (ofLines (earlier ++ line :: later)) tokens
      (place.raise earlier.length) := by
  induction earlier with
  | nil =>
    have hplace : place.raise ([] : List (List Char)).length = place := by simp [Place.raise]
    rw [hplace, List.nil_append]
    by_cases hlast : later = []
    · rw [hlast, ofLines, List.intercalate_singleton]
      exact ⟨tokens, h⟩
    · rw [ofLines_cons hlast]
      exact ⟨tokens, h.join _⟩
  | cons other earlier ih =>
    obtain ⟨hother, hlines⟩ := List.forall_mem_cons.1 inLine
    obtain ⟨heven, hevens⟩ := List.forall_mem_cons.1 even
    obtain ⟨_, hcut⟩ := segmented_line hother heven
    obtain ⟨others, hothers⟩ := ih hlines hevens
    have hplace : place.raise (other :: earlier).length =
        (place.raise earlier.length).raise (Place.linesOf other) := by
      simp only [Place.raise, Place.linesOf, List.count_eq_zero.2 hother, List.length_cons,
        Place.mk.injEq, and_true]
      omega
    rw [hplace, List.cons_append, ofLines_cons (by simp)]
    exact ⟨_, hcut.join_broken (hothers.behind_newline other)⟩

end Lexing

open Lexing

/-- The first line with an odd number of quotes is behind the `earlier` ones, and
the last of its quotes is at a place. -/
inductive Token.Unbalanced (source : List Char) : Place → Prop
  | mk {earlier later : List (List Char)} {line front back : List Char}
      (split : source.splitOn '\n' = earlier ++ line :: later)
      (even : ∀ line ∈ earlier, Even (quotes line)) (odd : Odd (quotes line))
      (last : uncommented [] line = front ++ '"' :: back) (closed : '"' ∉ back) :
      Unbalanced source ⟨earlier.length + 1, front.length + 1⟩

theorem Token.Unbalanced.broken {place : Place} (h : Token.Unbalanced source place) :
    ∃ tokens, Broken [] source tokens place := by
  obtain @⟨earlier, later, line, front, back, split, even, odd, last, closed⟩ := h
  have inLine := newline_not_mem_splitOn source
  rw [split, List.forall_mem_append, List.forall_mem_cons] at inLine
  obtain ⟨hearlier, hline, -⟩ := inLine
  obtain ⟨_, hbroken⟩ := broken_line hline last closed odd
  obtain ⟨tokens, hbroken⟩ := broken_lines hearlier even hbroken later
  have hplace : Place.raise earlier.length ⟨1, front.length + 1⟩ =
      ⟨earlier.length + 1, front.length + 1⟩ := by
    simp [Place.raise, Int.add_comm]
  rw [← split, ofLines, List.intercalate_splitOn, hplace] at hbroken
  exact ⟨tokens, hbroken⟩

theorem Token.even_or_unbalanced (source : List Char) :
    (∀ line ∈ source.splitOn '\n', Even (quotes line)) ∨
      ∃ place, Token.Unbalanced source place := by
  cases hfirst : (source.splitOn '\n').find? fun line => decide (Odd (quotes line)) with
  | none =>
    refine .inl fun line hline => Nat.not_odd_iff_even.1 fun hodd => ?_
    exact List.find?_eq_none.1 hfirst line hline (decide_eq_true hodd)
  | some line =>
    obtain ⟨hodd, earlier, later, split, heven⟩ := List.find?_eq_some_iff_append.1 hfirst
    have hquote : '"' ∈ uncommented [] line := by
      by_contra habsent
      simp [quotes, List.count_eq_zero.2 habsent] at hodd
    obtain ⟨front, back, hlast, hback⟩ := exists_last_quote hquote
    refine .inr ⟨_, split, fun other hother => ?_, of_decide_eq_true hodd, hlast, hback⟩
    simpa using heven other hother

theorem Token.Unbalanced.exists_odd {place : Place} (h : Token.Unbalanced source place) :
    ∃ line ∈ source.splitOn '\n', Odd (quotes line) := by
  obtain ⟨split, -, odd, -, -⟩ := h
  exact ⟨_, split ▸ List.mem_append_right _ List.mem_cons_self, odd⟩

theorem Token.Unbalanced.ofSource {place : Place} (h : Token.Unbalanced source place) :
    Token.ofSource source = .error ⟨.unclosedString, some place⟩ := by
  obtain ⟨tokens, hbroken⟩ := h.broken
  exact Token.ofSource_eq_error_iff.2 ⟨_, _, hbroken, rfl⟩

theorem Token.exists_ofSource (even : ∀ line ∈ source.splitOn '\n', Even (quotes line)) :
    ∃ tokens, Token.ofSource source = .ok tokens := by
  obtain ⟨tokens, hcut⟩ :=
    segmented_lines (newline_not_mem_splitOn source) even (List.splitOn_ne_nil _ _)
  rw [ofLines, List.intercalate_splitOn] at hcut
  exact ⟨tokens, Token.ofSource_eq_ok_iff.2 hcut⟩

/-- A text has tokens if every line has an even number of quotes, its comment left
out. Otherwise the error is at the last quote of the first line that has not. -/
theorem Token.ofSource_error_exact (source : List Char) :
    ((∃ tokens, Token.ofSource source = .ok tokens) ↔
      ∀ line ∈ source.splitOn '\n', Even (quotes line)) ∧
    ((∃ error, Token.ofSource source = .error error) ↔
      ∃ line ∈ source.splitOn '\n', Odd (quotes line)) ∧
    ∀ error, Token.ofSource source = .error error ↔ ∃ place, Token.Unbalanced source place ∧
      error = ⟨.unclosedString, some place⟩ ∧ error.cause.message = "Ожидалось \"" := by
  rcases Token.even_or_unbalanced source with even | ⟨place, hunbalanced⟩
  · obtain ⟨tokens, htokens⟩ := Token.exists_ofSource even
    have hnone : ¬∃ line ∈ source.splitOn '\n', Odd (quotes line) := by
      rintro ⟨line, hline, odd⟩
      exact Nat.not_odd_iff_even.2 (even line hline) odd
    have hread (error : SyntaxError) : Token.ofSource source ≠ .error error := by simp [htokens]
    refine ⟨⟨fun _ => even, fun _ => ⟨tokens, htokens⟩⟩, ⟨?_, fun h => absurd h hnone⟩,
      fun error => ⟨fun h => absurd h (hread error), ?_⟩⟩
    · rintro ⟨error, h⟩
      exact absurd h (hread error)
    · rintro ⟨_, h, -⟩
      exact absurd h.exists_odd hnone
  · have herror := hunbalanced.ofSource
    obtain ⟨line, hline, odd⟩ := hunbalanced.exists_odd
    refine ⟨⟨?_, fun even => ?_⟩, ⟨fun _ => ⟨line, hline, odd⟩, fun _ => ⟨_, herror⟩⟩,
      fun error => ⟨fun h => ?_, ?_⟩⟩
    · rintro ⟨tokens, h⟩
      cases herror.symm.trans h
    · exact absurd odd (Nat.not_odd_iff_even.2 (even line hline))
    · obtain rfl := Except.error.inj (herror.symm.trans h)
      exact ⟨place, hunbalanced, rfl, rfl⟩
    · rintro ⟨_, h, rfl, -⟩
      exact h.ofSource

end Rech
