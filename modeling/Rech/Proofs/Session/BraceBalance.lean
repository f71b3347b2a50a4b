import Rech.Proofs.Token.Joining
import Rech.Session.Console

/-!
# Counting braces is counting brace tokens

The count of open braces reads a line by itself, and reads it as the tokens are
read: it passes over the same strings and ends at the same comment. In a text
without newlines a comment is the last thing there is and an unclosed string is
where reading stops, so the two agree on texts that cannot be cut as well.
-/

namespace Rech

/-- What a token adds to the braces that are open. -/
def Token.Kind.brace : Token.Kind → Int
  | .leftBrace => 1
  | .rightBrace => -1
  | _ => 0

def Token.braces (tokens : List Token) : Int :=
  tokens.countP (·.kind = .leftBrace) - tokens.countP (·.kind = .rightBrace)

namespace Token

@[simp] theorem braces_nil : braces [] = 0 := by simp [braces]

@[simp] theorem braces_cons (token : Token) (tokens : List Token) :
    braces (token :: tokens) = token.kind.brace + braces tokens := by
  unfold braces
  rw [List.countP_cons, List.countP_cons]
  cases hk : token.kind <;> simp [Kind.brace] <;> omega

@[simp] theorem braces_append (tokens others : List Token) :
    braces (tokens ++ others) = braces tokens + braces others := by
  simp only [braces, List.countP_append]
  omega

@[simp] theorem braces_map_raise (lines : Int) (tokens : List Token) :
    braces (tokens.map (raise lines)) = braces tokens := by
  induction tokens with
  | nil => rfl
  | cons token tokens ih => simp [raise, ih]

theorem EndsOnce.braces_dropLast {tokens : List Token} (h : EndsOnce tokens) :
    braces tokens.dropLast = braces tokens := by
  obtain ⟨shown, last, rfl, hlast, -⟩ := h
  simp [hlast, Kind.brace]

end Token

-- ---------------------------------------------------------------------------
-- Characters
-- ---------------------------------------------------------------------------

/-- The characters at which the count does something. -/
def Counted (c : Char) : Prop := c ∈ ['/', '"', '{', '}']

instance (c : Char) : Decidable (Counted c) := inferInstanceAs (Decidable (_ ∈ _))

@[simp] theorem braceBalance_nil (inString : Bool) : braceBalance inString [] = 0 := by
  cases inString <;> rfl

theorem braceBalance_left (rest : List Char) :
    braceBalance false ('{' :: rest) = braceBalance false rest + 1 := rfl

theorem braceBalance_right (rest : List Char) :
    braceBalance false ('}' :: rest) = braceBalance false rest - 1 := rfl

theorem braceBalance_comment (text : List Char) : braceBalance false ('/' :: '/' :: text) = 0 := rfl

theorem braceBalance_quote (rest : List Char) :
    braceBalance false ('"' :: rest) = braceBalance true rest := rfl

theorem braceBalance_inside (c : Char) (rest : List Char) :
    braceBalance true (c :: rest) = braceBalance (c != '"') rest := rfl

theorem braceBalance_cons {c : Char} (h : ¬Counted c) (rest : List Char) :
    braceBalance false (c :: rest) = braceBalance false rest := by
  simp only [Counted, List.mem_cons, List.not_mem_nil, or_false, not_or] at h
  obtain ⟨hslash, hquote, hleft, hright⟩ := h
  rw [braceBalance] <;> simp_all

theorem braceBalance_append (h : ∀ c ∈ span, ¬Counted c) (rest : List Char) :
    braceBalance false (span ++ rest) = braceBalance false rest := by
  induction span with
  | nil => rfl
  | cons c span ih =>
    obtain ⟨hc, hspan⟩ := List.forall_mem_cons.1 h
    rw [List.cons_append, braceBalance_cons hc, ih hspan]

theorem braceBalance_slash (h : rest.head? ≠ some '/') :
    braceBalance false ('/' :: rest) = braceBalance false rest := by
  rw [braceBalance] <;> simp
  rintro tail rfl
  exact h rfl

theorem braceBalance_inString (h : '"' ∉ text) (rest : List Char) :
    braceBalance true (text ++ rest) = braceBalance true rest := by
  induction text with
  | nil => rfl
  | cons c text ih =>
    obtain ⟨hc, htext⟩ := List.ne_and_not_mem_of_not_mem_cons h
    have hne : (c != '"') = true := by simpa using Ne.symm hc
    rw [List.cons_append, braceBalance_inside, hne, ih htext]

-- ---------------------------------------------------------------------------
-- Gaps and lexemes
-- ---------------------------------------------------------------------------

namespace Lexing

theorem not_counted_of_isSpace {c : Char} (h : Token.isSpace c = true) : ¬Counted c := by
  simpa using of_isSpace h (fun c => !decide (Counted c)) (by decide)

theorem counted_iff {c : Char} : Counted c ↔ c = '/' ∨ c = '"' ∨ c = '{' ∨ c = '}' := by
  simp [Counted]

theorem not_counted_of_isNumeric {c : Char} (h : Token.isNumeric c = true) : ¬Counted c := by
  intro hc
  rcases counted_iff.1 hc with rfl | rfl | rfl | rfl <;> revert h <;> decide

theorem not_counted_of_isIdentifierChar {c : Char} (h : Token.isIdentifierChar c = true) :
    ¬Counted c := by
  intro hc
  rcases counted_iff.1 hc with rfl | rfl | rfl | rfl <;> revert h <;> decide +kernel

theorem eq_quote_or_spelled_of_counted {c : Char} (h : Counted c) :
    c = '"' ∨ ∃ entry ∈ Token.table, entry.1 = [c] := by
  rcases counted_iff.1 h with rfl | rfl | rfl | rfl
  · exact .inr ⟨(['/'], .math), by decide, rfl⟩
  · exact .inl rfl
  · exact .inr ⟨(['{'], .leftBrace), by decide, rfl⟩
  · exact .inr ⟨(['}'], .rightBrace), by decide, rfl⟩

theorem NoRule.not_counted (h : NoRule c rest) : ¬Counted c := by
  intro hc
  rcases eq_quote_or_spelled_of_counted hc with hquote | ⟨entry, hmem, hentry⟩
  · exact h.notString hquote
  · exact h.noKey entry ⟨hmem, hentry ▸ List.prefix_append [c] rest⟩

theorem Gap.balance_eq (h : Gap skipped rest) (hn : '\n' ∉ skipped) :
    braceBalance false (skipped ++ rest) = braceBalance false rest := by
  induction h with
  | none => rfl
  | blank blank _ ih =>
    rw [List.cons_append, braceBalance_cons (not_counted_of_isSpace blank),
      ih (List.not_mem_of_not_mem_cons hn)]
  | comment => simp at hn
  | lastComment => simp [braceBalance_comment]
  | dropped noRule _ ih =>
    rw [List.cons_append, braceBalance_cons noRule.not_counted,
      ih (List.not_mem_of_not_mem_cons hn)]

theorem spelling_cases : ∀ entry ∈ Token.table,
    entry = (['/'], .math) ∨ entry = (['{'], .leftBrace) ∨ entry = (['}'], .rightBrace) ∨
      entry.2 = .comment ∨ entry.1.all (fun c => !decide (Counted c)) ∧ entry.2.brace = 0 := by
  decide

theorem LongestKey.head?_ne_slash {kind : Token.Kind}
    (h : LongestKey ('/' :: rest) (['/'], kind)) : rest.head? ≠ some '/' := by
  intro hhead
  obtain ⟨tail, rfl⟩ := List.head?_eq_some_iff.1 hhead
  have hle := h.2 _ (longestKey_comment tail).1
  simp at hle

theorem Lexeme.balance_eq (h : Lexeme kind text span rest) :
    braceBalance false (span ++ rest) = kind.brace + braceBalance false rest := by
  cases h with
  | key longest shown =>
    rcases spelling_cases _ longest.1.1 with hentry | hentry | hentry | hcomment | ⟨hplain, hkind⟩
    · obtain ⟨rfl, rfl⟩ := Prod.mk.inj hentry
      have hhead := LongestKey.head?_ne_slash longest
      simpa [Token.Kind.brace] using braceBalance_slash hhead
    · obtain ⟨rfl, rfl⟩ := Prod.mk.inj hentry
      simp [braceBalance_left, Token.Kind.brace, Int.add_comm]
    · obtain ⟨rfl, rfl⟩ := Prod.mk.inj hentry
      simp only [List.cons_append, List.nil_append, braceBalance_right, Token.Kind.brace]
      omega
    · exact absurd hcomment shown
    · simp only [List.all_eq_true, Bool.not_eq_true', decide_eq_false_iff_not] at hplain
      rw [braceBalance_append hplain, hkind, Int.zero_add]
  | number _ run =>
    rw [braceBalance_append fun c hc => not_counted_of_isNumeric (run.inside c hc)]
    exact (Int.zero_add _).symm
  | string _ closed =>
    have hclosing : braceBalance true ('"' :: rest) = braceBalance false rest := rfl
    rw [List.cons_append, List.append_assoc, braceBalance_quote, braceBalance_inString closed,
      List.singleton_append, hclosing]
    exact (Int.zero_add _).symm
  | identifier _ _ run =>
    rw [braceBalance_append fun c hc => not_counted_of_isIdentifierChar (run.inside c hc)]
    exact (Int.zero_add _).symm

-- ---------------------------------------------------------------------------
-- Texts
-- ---------------------------------------------------------------------------

theorem Segmented.balance_eq (h : Segmented before source tokens) (hn : '\n' ∉ source) :
    braceBalance false source = Token.braces tokens := by
  induction h with
  | last gap =>
    have hgap := gap.balance_eq hn
    rw [List.append_nil] at hgap
    simp [hgap, Token.Kind.brace]
  | token gap lexeme _ ih =>
    simp only [List.mem_append, not_or] at hn
    rw [gap.balance_eq hn.1, lexeme.balance_eq, ih hn.2.2, Token.braces_cons]

theorem Broken.balance_eq (h : Broken before source tokens place) (hn : '\n' ∉ source) :
    braceBalance false source = Token.braces tokens := by
  induction h with
  | @unclosed skipped text rest before gap unclosed =>
    simp only [List.mem_append, List.mem_cons, not_or] at hn
    obtain ⟨hskipped, -, -, hrest⟩ := hn
    -- In a single line an unclosed string reaches to the end.
    obtain rfl : rest = [] := by
      cases rest with
      | nil => rfl
      | cons c rest =>
        obtain rfl := unclosed.stopped c rfl
        exact absurd List.mem_cons_self hrest
    have hclosed : '"' ∉ text := fun hmem => by simpa [inString] using unclosed.inside _ hmem
    rw [gap.balance_eq hskipped, braceBalance_quote, braceBalance_inString hclosed]
    rfl
  | token gap lexeme _ ih =>
    simp only [List.mem_append, not_or] at hn
    rw [gap.balance_eq hn.1, lexeme.balance_eq, ih hn.2.2, Token.braces_cons]

end Lexing

theorem braceBalance_eq_braces_yielded {text : List Char} (h : '\n' ∉ text) :
    braceBalance false text = Token.braces (Reader.ofText text).yielded := by
  rw [← Reader.behind_nil]
  rcases Lexing.segmented_or_broken [] text with ⟨tokens, hcut⟩ | ⟨tokens, place, hbroken⟩
  · rw [hcut.yielded_behind, hcut.balance_eq h, hcut.endsOnce.braces_dropLast]
  · rw [hbroken.yielded_behind, hbroken.balance_eq h]

-- ---------------------------------------------------------------------------
-- Lines
-- ---------------------------------------------------------------------------

/-- The sum of the counts of single lines. -/
def braceDepth : List (List Char) → Int
  | [] => 0
  | line :: lines => braceBalance false line + braceDepth lines

theorem braceDepth_concat (lines : List (List Char)) (line : List Char) :
    braceDepth (lines ++ [line]) = braceDepth lines + braceBalance false line := by
  induction lines with
  | nil => simp [braceDepth]
  | cons first lines ih =>
    rw [List.cons_append, braceDepth, ih, braceDepth]
    omega

structure Token.IsLine (line : List Char) : Prop where
  inLine : '\n' ∉ line
  reads : ∃ tokens, Token.ofSource line = .ok tokens

theorem braces_ofSource_lines {lines : List (List Char)} (h : ∀ line ∈ lines, Token.IsLine line) :
    ∃ tokens, Token.ofSource (['\n'].intercalate lines) = .ok tokens ∧
      braceDepth lines = Token.braces tokens := by
  induction lines with
  | nil => exact ⟨[⟨.endOfFile, "\x00", .start⟩], by decide +kernel, rfl⟩
  | cons line lines ih =>
    obtain ⟨hline, hlines⟩ := List.forall_mem_cons.1 h
    obtain ⟨tokens, htokens⟩ := hline.reads
    have hcut := Token.ofSource_eq_ok_iff.1 htokens
    have hfirst := hcut.balance_eq hline.inLine
    cases lines with
    | nil =>
      refine ⟨tokens, by simpa using htokens, ?_⟩
      rw [braceDepth, braceDepth, Int.add_zero, hfirst]
    | cons next lines =>
      obtain ⟨others, hothers, hdepth⟩ := ih hlines
      refine ⟨_, Token.ofSource_join htokens hothers, ?_⟩
      rw [braceDepth, hfirst, hdepth, Token.braces_append, hcut.endsOnce.braces_dropLast,
        Token.braces_map_raise]

-- ---------------------------------------------------------------------------
-- The console
-- ---------------------------------------------------------------------------

/-- The states a console comes to as it reads lines. -/
inductive Console.Reached (trace debug : Bool) : Console → Prop
  | start : Reached trace debug .start
  | read (before : Reached trace debug console)
      (stays : console.read trace debug line = .stay output next) : Reached trace debug next

theorem Console.depth_read {console next : Console}
    (h : console.depth = braceDepth console.pending)
    (stays : console.read trace debug line = .stay output next) :
    next.depth = braceDepth next.pending := by
  unfold Console.read at stays
  dsimp only at stays
  split at stays
  · cases stays
  split at stays
  · cases stays
    exact h
  split at stays
  · cases stays
    rw [braceDepth_concat, h]
  · cases stays
    rfl

theorem Console.Reached.depth_eq (h : Reached trace debug console) :
    console.depth = braceDepth console.pending := by
  induction h with
  | start => rfl
  | read _ stays ih => exact depth_read ih stays

/-- The count agrees with the tokens: on a single line up to where reading it
ends, over lines with the tokens of the lines put together. It is the count by
which a console knows how many braces its pending lines leave open. -/
theorem braceBalance_exact (trace debug : Bool) :
    (∀ text, '\n' ∉ text →
      braceBalance false text = Token.braces (Reader.ofText text).yielded) ∧
    (∀ lines, (∀ line ∈ lines, Token.IsLine line) →
      ∃ tokens, Token.ofSource (['\n'].intercalate lines) = .ok tokens ∧
        braceDepth lines = Token.braces tokens) ∧
    ∀ console, Console.Reached trace debug console →
      console.depth = braceDepth console.pending := by
  refine ⟨fun text h => ?_, fun lines h => ?_, fun console h => ?_⟩
  · exact braceBalance_eq_braces_yielded h
  · exact braces_ofSource_lines h
  · exact h.depth_eq

/-- A brace in a string, a single slash and a brace in a comment. -/
def Console.sampleLine : List Char := "\x7b \"\x7d\" / \x7b // \x7d".toList

theorem braceBalance_exact_sample :
    ('\n' ∉ Console.sampleLine ∧ braceBalance false Console.sampleLine =
      Token.braces (Reader.ofText Console.sampleLine).yielded) ∧
    ((∀ line ∈ [Console.sampleLine, ['}', '}']], Token.IsLine line) ∧
      ∃ tokens, Token.ofSource (['\n'].intercalate [Console.sampleLine, ['}', '}']]) = .ok tokens ∧
        braceDepth [Console.sampleLine, ['}', '}']] = Token.braces tokens) ∧
    (Console.Reached false false ⟨∅, [Console.sampleLine], 2⟩ ∧
      2 = braceDepth [Console.sampleLine]) := by
  have hfirst : Token.IsLine Console.sampleLine := by
    refine ⟨by decide, [⟨.leftBrace, "\x7b", ⟨1, 1⟩⟩, ⟨.string, "\x7d", ⟨1, 3⟩⟩,
      ⟨.math, "/", ⟨1, 7⟩⟩, ⟨.leftBrace, "\x7b", ⟨1, 9⟩⟩, ⟨.endOfFile, "\x00", ⟨1, 15⟩⟩], ?_⟩
    decide +kernel
  have hsecond : Token.IsLine ['}', '}'] := by
    refine ⟨by decide, [⟨.rightBrace, "\x7d", ⟨1, 1⟩⟩, ⟨.rightBrace, "\x7d", ⟨1, 2⟩⟩,
      ⟨.endOfFile, "\x00", ⟨1, 3⟩⟩], ?_⟩
    decide +kernel
  have hlines := List.forall_mem_cons.2 ⟨hfirst, List.forall_mem_singleton.2 hsecond⟩
  have stays : Console.start.read false false Console.sampleLine =
      .stay "" ⟨∅, [Console.sampleLine], 2⟩ := rfl
  have hconsole := Console.Reached.read .start stays
  obtain ⟨single, several, depth⟩ := braceBalance_exact false false
  exact ⟨⟨hfirst.inLine, single _ hfirst.inLine⟩, ⟨hlines, several _ hlines⟩, hconsole,
    depth _ hconsole⟩

end Rech
