import Rech.Proofs.Text.Place
import Rech.Token.Lexeme

/-!
# How a source text is cut

A text is cut into gaps and lexemes in turn, and ends in a gap. What a lexeme
is depends on the text behind it as well: it is the longest spelling of the
table that fits there, else the longest run of numeric characters, a string in
quotes, or the longest run of identifier characters. A gap is blanks, comments
and characters that none of these rules takes. A token tells where its lexeme
begins.
-/

namespace Rech.Lexing

def IsKey (text : List Char) (entry : List Char × Token.Kind) : Prop :=
  entry ∈ Token.table ∧ entry.1 <+: text

def LongestKey (text : List Char) (entry : List Char × Token.Kind) : Prop :=
  IsKey text entry ∧ ∀ other, IsKey text other → other.1.length ≤ entry.1.length

def NoKey (text : List Char) : Prop := ∀ entry, ¬IsKey text entry

/-- All characters of a class in front of the rest, and at least one. -/
structure WholeRun (inRun : Char → Bool) (run rest : List Char) : Prop where
  nonempty : run ≠ []
  inside : ∀ c ∈ run, inRun c = true
  maximal : ∀ c ∈ rest.head?, inRun c = false

/-- `Lexeme kind text span rest`: in front of `rest` stands the span of a token
of this kind and text. -/
inductive Lexeme : Token.Kind → List Char → List Char → List Char → Prop
  | key (longest : LongestKey (span ++ rest) (span, kind)) (shown : kind ≠ .comment) :
      Lexeme kind span span rest
  | number (noKey : NoKey (span ++ rest)) (run : WholeRun Token.isNumeric span rest) :
      Lexeme .number span span rest
  | string (noKey : NoKey ('"' :: (text ++ '"' :: rest))) (closed : '"' ∉ text)
      (inLine : '\n' ∉ text) : Lexeme .string text ('"' :: (text ++ ['"'])) rest
  | identifier (noKey : NoKey (span ++ rest))
      (notNumber : ∀ c ∈ span.head?, Token.isNumeric c = false)
      (run : WholeRun Token.isIdentifierChar span rest) : Lexeme .identifier span span rest

/-- No rule takes the character in front. -/
structure NoRule (c : Char) (rest : List Char) : Prop where
  noKey : NoKey (c :: rest)
  notNumber : Token.isNumeric c = false
  notString : c ≠ '"'
  notIdentifier : Token.isIdentifierChar c = false

/-- What may stand between lexemes, with the rest of the text behind it. -/
inductive Gap : List Char → List Char → Prop
  | none : Gap [] rest
  | blank (blank : Token.isSpace c = true) (others : Gap gap rest) : Gap (c :: gap) rest
  | comment (inLine : '\n' ∉ text) (others : Gap gap rest) :
      Gap ('/' :: '/' :: (text ++ '\n' :: gap)) rest
  | lastComment (inLine : '\n' ∉ text) : Gap ('/' :: '/' :: text) []
  | dropped (noRule : NoRule c (gap ++ rest)) (others : Gap gap rest) : Gap (c :: gap) rest

/-- The tokens of a text that stands behind another one. -/
inductive Segmented : List Char → List Char → List Token → Prop
  | last (gap : Gap text []) :
      Segmented before text [⟨.endOfFile, "\x00", .behind (before ++ text)⟩]
  | token (gap : Gap skipped (span ++ rest)) (lexeme : Lexeme kind text span rest)
      (others : Segmented (before ++ (skipped ++ span)) rest tokens) :
      Segmented before (skipped ++ (span ++ rest))
        (⟨kind, String.ofList text, .behind (before ++ skipped)⟩ :: tokens)

-- ---------------------------------------------------------------------------
-- The table
-- ---------------------------------------------------------------------------

theorem pairwise_length_table :
    Token.table.Pairwise fun one other => other.1.length ≤ one.1.length := by
  decide

theorem eq_of_mem_table :
    ∀ one ∈ Token.table, ∀ other ∈ Token.table, one.1 = other.1 → one = other := by
  decide

theorem key?_eq_none_iff : Token.key? text = none ↔ NoKey text := by
  simp only [Token.key?, List.find?_eq_none, List.isPrefixOf_iff_prefix, NoKey, IsKey, not_and]

theorem IsKey.eq_of_length (h : IsKey text one) (h' : IsKey text other)
    (hl : one.1.length = other.1.length) : one = other :=
  eq_of_mem_table _ h.1 _ h'.1
    ((List.prefix_of_prefix_length_le h.2 h'.2 (Nat.le_of_eq hl)).eq_of_length hl)

theorem longestKey_of_key? (h : Token.key? text = some entry) : LongestKey text entry := by
  obtain ⟨hp, longer, shorter, htable, hlonger⟩ := List.find?_eq_some_iff_append.1 h
  refine ⟨⟨Token.mem_table_of_key? h, List.isPrefixOf_iff_prefix.1 hp⟩, ?_⟩
  rintro other ⟨hmem, hfits⟩
  have hsorted := pairwise_length_table
  rw [htable, List.pairwise_append, List.pairwise_cons] at hsorted
  rw [htable, List.mem_append, List.mem_cons] at hmem
  rcases hmem with hmem | rfl | hmem
  · simpa [List.isPrefixOf_iff_prefix.2 hfits] using hlonger other hmem
  · exact Nat.le_refl _
  · exact hsorted.2.1.1 other hmem

theorem key?_eq_some_iff : Token.key? text = some entry ↔ LongestKey text entry := by
  refine ⟨longestKey_of_key?, fun h => ?_⟩
  cases hk : Token.key? text with
  | none => exact absurd h.1 (key?_eq_none_iff.1 hk _)
  | some other =>
    have ho := longestKey_of_key? hk
    rw [ho.1.eq_of_length h.1 (Nat.le_antisymm (h.2 _ ho.1) (ho.2 _ h.1))]

end Rech.Lexing
