import Rech.Proofs.Binary64.Display
import Rech.Proofs.Session.Readings
import Rech.Proofs.Token.Writing
import Rech.Run.Expression

/-!
# Displayed numbers are read back

A number that is displayed without an exponent is a numeral, or a minus sign and a
numeral right behind it. It is read as one expression, and in any store the value of
that expression is the number.
-/

namespace Rech

open Lexing

-- ---------------------------------------------------------------------------
-- Whole expressions
-- ---------------------------------------------------------------------------

theorem Parsing.wholeExpression_of_derives (h : Expr.Derives Token.line Level.all w e)
    {last : Token} (hlast : last.kind = .endOfFile) :
    wholeExpression.ofTokens (w ++ [last]) = .ok e := by
  have hends : Token.EndsList (w ++ [last]) := ⟨last, by simp, hlast⟩
  obtain ⟨stream, hstream, hahead, -⟩ := TokenStream.exists_ofTokens hends
  let after : TokenStream := ⟨stream.tokens, [last], stream.last, stream.offset + w.length⟩
  have passed : stream.Passes w after := ⟨rfl, hahead, rfl, rfl⟩
  have hpeek : (after.peek 0).kind = .endOfFile := hlast
  have houtside : (after.peek 0).Outside Level.all :=
    Token.outside_of_kind (by simp [hpeek]) (by simp [hpeek])
  have hvalue := complete_expression h (Nat.le_refl _) passed houtside
  rw [ofTokens_eq hstream]
  simp only [wholeExpression, atEnd, runOn_bind, hvalue, runOn_peek, runOn_pure, hpeek,
    decide_true, if_true]

theorem Expr.Derives.of_operand (h : Expr.Derives anchor [] w e) :
    Expr.Derives anchor Level.all w e :=
  .single (.single (.single h))

-- ---------------------------------------------------------------------------
-- Numerals and signs
-- ---------------------------------------------------------------------------

theorem Lexing.longestKey_minus (rest : List Char) :
    LongestKey ('-' :: rest) (['-'], .math) := by
  have halone : ∀ entry ∈ Token.table, entry.1.head? = some '-' → entry.1 = ['-'] := by decide
  refine ⟨⟨by decide, ⟨rest, rfl⟩⟩, ?_⟩
  rintro ⟨key, kind⟩ ⟨hmem, hfits⟩
  obtain ⟨c, span, rfl⟩ := List.exists_cons_of_ne_nil (Token.ne_nil_of_mem_table _ hmem)
  obtain ⟨tail, htail⟩ := hfits
  obtain rfl : c = '-' := (List.cons.inj htail).1
  exact Nat.le_of_eq (congrArg List.length (halone _ hmem rfl))

theorem Lexing.segmented_numeral (h : Token.IsNumeral numeral) (before : List Char) :
    ∃ last, Segmented before numeral.toList
      [⟨.number, numeral, .behind before⟩, ⟨.endOfFile, "\x00", last⟩] := by
  have hcut : Segmented before ([] ++ (numeral.toList ++ [])) _ :=
    .token .none h.lexeme (.last .none)
  rw [List.nil_append, List.append_nil, List.append_nil, String.ofList_toList] at hcut
  exact ⟨_, hcut⟩

theorem Token.IsNumeral.reads (h : IsNumeral numeral) (negative : Bool) : ∃ tokens e,
    Token.ofSource (Binary64.withSign negative numeral.toList) = .ok tokens ∧
    Parsing.wholeExpression.ofTokens tokens = .ok e ∧
    ∀ store, e.eval store = .ok (.number (if negative then (Binary64.ofText numeral.toList).neg
      else .ofText numeral.toList)) := by
  cases negative with
  | false =>
    obtain ⟨last, hcut⟩ := segmented_numeral h []
    have hnumber : Expr.Derives Token.line [] [⟨.number, numeral, .behind []⟩] _ := .number rfl
    exact ⟨_, _, ofSource_eq_ok_iff.2 hcut,
      Parsing.wholeExpression_of_derives hnumber.of_operand rfl,
      fun _ => rfl⟩
  | true =>
    obtain ⟨last, hcut⟩ := segmented_numeral h ['-']
    have hsign : Segmented [] ([] ++ (['-'] ++ numeral.toList)) _ :=
      .token .none (.key (longestKey_minus numeral.toList) (by decide)) hcut
    have hnegate : Expr.Derives Token.line []
        [⟨.math, "-", .behind []⟩, ⟨.number, numeral, .behind ['-']⟩] _ :=
      .negate rfl rfl (.number rfl)
    exact ⟨_, _, ofSource_eq_ok_iff.2 hsign,
      Parsing.wholeExpression_of_derives hnegate.of_operand rfl,
      fun _ => rfl⟩

namespace Binary64

theorem Form.isNumeral (h : Form width units text) (he : 'e' ∉ text) :
    Token.IsNumeral (String.ofList text) := by
  have hnumeric : ∀ c ∈ positionalChars, Token.isNumeric c = true := by decide
  constructor
  · obtain ⟨c, rest, rfl, -⟩ := h.leading
    simp
  · rw [String.toList_ofList]
    exact fun c hc => hnumeric c (h.positional he c hc)

theorem e_not_mem_magnitude (h : Representable units)
    (hrange : units = 0 ∨ one ≤ units * Nat.pow 10 4 ∧ units < Nat.pow 10 21 * one) :
    'e' ∉ magnitude units := by
  rw [e_mem_magnitude_iff h.2, not_or, not_and, Nat.not_lt, Nat.not_le]
  rcases hrange with rfl | ⟨hle, hlt⟩
  · exact ⟨fun hpos => absurd hpos (Nat.lt_irrefl 0), Nat.mul_pos (pow_ten_pos 21) one_pos⟩
  · exact ⟨fun _ => hle, hlt⟩

/-- A number that is zero or from 10^-4 up to below 10^21 is read back as displayed. -/
theorem value_of_display (negative : Bool) {units : Nat} (h : Representable units)
    (hrange : units = 0 ∨ one ≤ units * Nat.pow 10 4 ∧ units < Nat.pow 10 21 * one) :
    ∃ tokens e,
      Token.ofSource (Value.number (.finite negative units h)).display.toList = .ok tokens ∧
      Parsing.wholeExpression.ofTokens tokens = .ok e ∧
      ∀ store, ∃ y, e.eval store = .ok (.number y) ∧ y.equal (.finite negative units h) = true := by
  have he := e_not_mem_magnitude h hrange
  have hform := form_magnitude h
  have hvalue := hform.reads he h
  obtain ⟨tokens, e, htokens, hexpr, heval⟩ :=
    (hform.isNumeral he).reads (displayed.signed (.finite negative units h))
  rw [String.toList_ofList] at htokens heval
  have hshown : (Value.number (.finite negative units h)).display.toList =
      displayed.shown (.finite negative units h) := toList_display _
  refine ⟨tokens, e, hshown ▸ htokens, hexpr, fun store => ⟨_, heval store, ?_⟩⟩
  have hsign (signed : Bool) : (if signed then (finite false units h).neg else
      finite false units h) = finite signed units h := by
    cases signed <;> rfl
  rw [hvalue, hsign]
  exact equal_self_of_signed h (by simp [displayed, Style.signed])

/-- -0.75 is read back. -/
theorem value_of_display_negative : one ≤ 3 * Nat.pow 2 1072 * Nat.pow 10 4 ∧
    ∃ h : Representable (3 * Nat.pow 2 1072), ∃ tokens e,
      Token.ofSource (Value.number (.finite true _ h)).display.toList = .ok tokens ∧
      Parsing.wholeExpression.ofTokens tokens = .ok e ∧
      ∀ store, ∃ y, e.eval store = .ok (.number y) ∧ y.equal (.finite true _ h) = true := by
  have h : Representable (3 * Nat.pow 2 1072) := by decide +kernel
  have hle : one ≤ 3 * Nat.pow 2 1072 * Nat.pow 10 4 := by decide +kernel
  have hlt : 3 * Nat.pow 2 1072 < Nat.pow 10 21 * one := by decide +kernel
  exact ⟨hle, h, value_of_display true h (.inr ⟨hle, hlt⟩)⟩

end Binary64

end Rech
