import Rech.Proofs.Token.Blanks
import Rech.Proofs.Token.Exact

/-!
# Writing tokens

A word is a token without its place. Words that can be written are read back
from any text that has them in turn, with blanks between them.
-/

namespace Rech

structure Token.Word where
  kind : Token.Kind
  text : String
deriving DecidableEq, Repr

def Token.word (token : Token) : Token.Word := ⟨token.kind, token.text⟩

def Token.Kind.isKeyword : Token.Kind → Bool
  | .letWord | .ifWord | .elseWord | .printWord | .returnWord | .nullWord => true
  | _ => false

namespace Token

/-- The texts of numbers. -/
structure IsNumeral (text : String) : Prop where
  nonempty : text.toList ≠ []
  inside : ∀ c ∈ text.toList, isNumeric c = true

/-- The texts of identifiers, which no keyword may begin. -/
structure IsName (text : String) : Prop where
  nonempty : text.toList ≠ []
  inside : ∀ c ∈ text.toList, isIdentifierChar c = true
  noDigit : ∀ c ∈ text.toList.head?, c.isDigit = false
  noKeyword : ∀ entry ∈ table, entry.2.isKeyword = true → ¬entry.1 <+: text.toList

structure IsLiteral (text : String) : Prop where
  closed : '"' ∉ text.toList
  inLine : '\n' ∉ text.toList

instance (text : String) : Decidable (IsNumeral text) :=
  decidable_of_iff (text.toList.isEmpty = false ∧ text.toList.all isNumeric = true) <| by
    rw [List.isEmpty_eq_false_iff, List.all_eq_true]
    exact ⟨fun ⟨nonempty, inside⟩ => ⟨nonempty, inside⟩, fun h => ⟨h.nonempty, h.inside⟩⟩

instance (text : String) : Decidable (IsLiteral text) :=
  decidable_of_iff (text.toList.contains '"' = false ∧ text.toList.contains '\n' = false) <| by
    rw [← Bool.not_eq_true, List.contains_iff_mem, ← Bool.not_eq_true, List.contains_iff_mem]
    exact ⟨fun ⟨closed, inLine⟩ => ⟨closed, inLine⟩, fun h => ⟨h.closed, h.inLine⟩⟩

instance (text : String) : Decidable (IsName text) :=
  decidable_of_iff ((text.toList.isEmpty = false ∧ text.toList.all isIdentifierChar = true) ∧
    (text.toList.head?.all fun c => !c.isDigit) = true ∧
    (table.all fun entry => !(entry.2.isKeyword && entry.1.isPrefixOf text.toList)) = true) <| by
    rw [List.isEmpty_eq_false_iff, List.all_eq_true, List.all_eq_true, Option.all_eq_true]
    constructor
    · rintro ⟨⟨nonempty, inside⟩, noDigit, noKeyword⟩
      refine ⟨nonempty, inside, fun c hc => by simpa using noDigit c hc, ?_⟩
      rintro entry hmem hkeyword hfits
      have hentry := noKeyword entry hmem
      simp [hkeyword, List.isPrefixOf_iff_prefix.2 hfits] at hentry
    · rintro ⟨nonempty, inside, noDigit, noKeyword⟩
      refine ⟨⟨nonempty, inside⟩, fun c hc => by simpa using noDigit c hc, fun entry hmem => ?_⟩
      cases hkeyword : entry.2.isKeyword with
      | false => rfl
      | true =>
        have hfits := noKeyword entry hmem hkeyword
        rw [← List.isPrefixOf_iff_prefix, Bool.not_eq_true] at hfits
        rw [hfits]
        rfl

namespace Word

inductive Writable (word : Word) : Prop
  | key (listed : (word.text.toList, word.kind) ∈ table) (shown : word.kind ≠ .comment)
  | number (kind : word.kind = .number) (numeral : IsNumeral word.text)
  | string (kind : word.kind = .string) (literal : IsLiteral word.text)
  | identifier (kind : word.kind = .identifier) (name : IsName word.text)

def span (word : Word) : List Char :=
  if word.kind = .string then '"' :: (word.text.toList ++ ['"']) else word.text.toList

def last : Word := ⟨.endOfFile, "\x00"⟩

/-- Words in turn, with blanks behind each of them and between any two. -/
inductive Written : List Word → List Char → Prop
  | nil : Written [] []
  | cons {word : Word} (blank : ∀ c ∈ blanks, isSpace c = true) (apart : words ≠ [] → blanks ≠ [])
      (others : Written words source) :
      Written (word :: words) (word.span ++ (blanks ++ source))

def spaced (words : List Word) : List Char := List.intercalate [' '] (words.map span)

theorem written_spaced (words : List Word) : Written words (spaced words) := by
  induction words with
  | nil => exact .nil
  | cons word words ih =>
    cases words with
    | nil =>
      have hword : Written [word] (word.span ++ ([] ++ [])) := .cons (by simp) (by simp) .nil
      simpa [spaced] using hword
    | cons other words =>
      have hwords : Written (word :: other :: words)
          (word.span ++ ([' '] ++ spaced (other :: words))) :=
        .cons (by simp [isSpace]) (by simp) ih
      simpa [spaced] using hwords

end Word

end Token

-- ---------------------------------------------------------------------------
-- The lexeme of a word
-- ---------------------------------------------------------------------------

namespace Lexing

theorem wholeRun_of_forall (hne : run ≠ []) (h : ∀ c ∈ run, inRun c = true) :
    WholeRun inRun run [] :=
  ⟨hne, h, by simp⟩

theorem of_isNumeric {c : Char} (h : Token.isNumeric c = true) (p : Char → Bool)
    (hp : ['0', '1', '2', '3', '4', '5', '6', '7', '8', '9', '.'].all p = true) : p c = true := by
  rw [Token.isNumeric, List.contains_iff_mem] at h
  exact List.all_eq_true.1 hp c h

theorem noKey_of_isNumeric {c : Char} (h : Token.isNumeric c = true) (rest : List Char) :
    NoKey (c :: rest) := by
  have hall := of_isNumeric h (fun c => Token.table.all fun entry => entry.1.head? != some c)
    (by decide)
  refine noKey_of_head? (fun entry hmem => ?_) rest
  simpa using List.all_eq_true.1 hall entry hmem

theorem noKey_quote (rest : List Char) : NoKey ('"' :: rest) :=
  noKey_of_head? (by decide) rest

theorem longestKey_self (h : (span, kind) ∈ Token.table) : LongestKey span (span, kind) := by
  refine ⟨⟨h, List.prefix_refl span⟩, ?_⟩
  rintro other ⟨-, hfits⟩
  exact hfits.length_le

end Lexing

open Lexing

theorem Token.IsNumeral.lexeme {text : String} (h : IsNumeral text) :
    Lexeme .number text.toList text.toList [] := by
  refine .number ?_ (wholeRun_of_forall h.nonempty h.inside)
  obtain ⟨c, rest, hsplit⟩ := List.exists_cons_of_ne_nil h.nonempty
  rw [hsplit]
  exact noKey_of_isNumeric (h.inside c (by simp [hsplit])) _

theorem Token.IsLiteral.lexeme {text : String} (h : IsLiteral text) :
    Lexeme .string text.toList ('"' :: (text.toList ++ ['"'])) [] :=
  .string (noKey_quote _) h.closed h.inLine

theorem Token.IsName.noKey {text : String} (h : IsName text) : NoKey text.toList := by
  have hhead : (table.all fun entry => entry.2.isKeyword ||
      entry.1.head?.all fun c => !isIdentifierChar c) = true := by
    decide +kernel
  rintro entry ⟨hmem, hfits⟩
  have hentry := List.all_eq_true.1 hhead entry hmem
  rw [Bool.or_eq_true] at hentry
  rcases hentry with hkeyword | hsign
  · exact h.noKeyword entry hmem hkeyword hfits
  · obtain ⟨c, span, hspan⟩ := List.exists_cons_of_ne_nil (ne_nil_of_mem_table _ hmem)
    rw [hspan] at hsign hfits
    have hc := h.inside c (hfits.subset List.mem_cons_self)
    simp [hc] at hsign

theorem Token.IsName.lexeme {text : String} (h : IsName text) :
    Lexeme .identifier text.toList text.toList [] := by
  refine .identifier ?_ ?_ (wholeRun_of_forall h.nonempty h.inside)
  · rw [List.append_nil]
    exact h.noKey
  · intro c hc
    rw [Bool.eq_false_iff]
    intro hnumeric
    have hdot := of_isNumeric hnumeric (fun c => c.isDigit || !isIdentifierChar c)
      (by decide +kernel)
    simp [h.noDigit c hc, h.inside c (List.mem_of_head? hc)] at hdot

theorem kind_ne_string_of_mem_table : ∀ entry ∈ Token.table, entry.2 ≠ .string := by
  decide

theorem Token.Word.Writable.lexeme {word : Word} (h : word.Writable) :
    Lexeme word.kind word.text.toList word.span [] := by
  cases h with
  | key listed shown =>
    rw [span, if_neg (kind_ne_string_of_mem_table _ listed)]
    exact .key (by simpa using longestKey_self listed) shown
  | number kind numeral =>
    rw [span, kind]
    exact numeral.lexeme
  | string kind literal =>
    rw [span, kind]
    exact literal.lexeme
  | identifier kind name =>
    rw [span, kind]
    exact name.lexeme

-- ---------------------------------------------------------------------------
-- Reading back
-- ---------------------------------------------------------------------------

namespace Token.Word

theorem Written.stops (blank : ∀ c ∈ blanks, isSpace c = true) (apart : words ≠ [] → blanks ≠ [])
    (h : Written words source) : Stops (blanks ++ source) := by
  cases blanks with
  | nil =>
    cases h with
    | nil => simp [Stops]
    | cons => exact absurd rfl (apart (by simp))
  | cons c blanks =>
    rintro d ⟨⟩
    exact blank c List.mem_cons_self

theorem Written.segmented (h : Written words source) (hw : ∀ word ∈ words, word.Writable) :
    ∀ before skipped, (∀ c ∈ skipped, isSpace c = true) →
      ∃ tokens, Segmented before (skipped ++ source) tokens ∧
        tokens.map Token.word = words ++ [last] := by
  induction h with
  | nil =>
    intro before skipped hskipped
    exact ⟨_, .last (gap_of_blanks (by simpa using hskipped)), rfl⟩
  | @cons blanks words source word blank apart others ih =>
    intro before skipped hskipped
    obtain ⟨hword, hwords⟩ := List.forall_mem_cons.1 hw
    obtain ⟨tokens, htokens, hmap⟩ := ih hwords (before ++ (skipped ++ word.span)) blanks blank
    have hlexeme := hword.lexeme.stops (others.stops blank apart)
    refine ⟨_, .token (gap_of_blanks hskipped) hlexeme htokens, ?_⟩
    rw [List.map_cons, hmap, Token.word, String.ofList_toList]
    rfl

theorem Written.ofSource (h : Written words source) (hw : ∀ word ∈ words, word.Writable) :
    ∃ tokens, Token.ofSource source = .ok tokens ∧
      tokens.map Token.word = words ++ [last] := by
  obtain ⟨tokens, htokens, hmap⟩ := h.segmented hw [] [] (by simp)
  exact ⟨tokens, Token.ofSource_eq_ok_iff.2 htokens, hmap⟩

end Token.Word

end Rech
