import Rech.Proofs.Token.Segmentation

/-!
# Blanks between lexemes

No spelling of the table has a blank, and no run takes one. So a lexeme stays
what it is when a blank, and whatever else, is put behind its text.
-/

namespace Rech.Lexing

-- ---------------------------------------------------------------------------
-- Classes of characters
-- ---------------------------------------------------------------------------

theorem of_isSpace {c : Char} (h : Token.isSpace c = true) (p : Char → Bool)
    (hp : [' ', '\n', '\t', '\r', '\x0c', '\x0b'].all p = true) : p c = true := by
  rw [Token.isSpace, List.contains_iff_mem] at h
  exact List.all_eq_true.1 hp c h

theorem not_mem_of_isSpace {c : Char} (h : Token.isSpace c = true) :
    ∀ entry ∈ Token.table, c ∉ entry.1 := by
  have hall := of_isSpace h (fun c => Token.table.all fun entry => !entry.1.contains c) (by decide)
  intro entry hmem
  simpa using List.all_eq_true.1 hall entry hmem

theorem isNumeric_of_isSpace {c : Char} (h : Token.isSpace c = true) :
    Token.isNumeric c = false := by
  simpa using of_isSpace h (fun c => !Token.isNumeric c) (by decide)

theorem isIdentifierChar_of_isSpace {c : Char} (h : Token.isSpace c = true) :
    Token.isIdentifierChar c = false := by
  simpa using of_isSpace h (fun c => !Token.isIdentifierChar c) (by decide +kernel)

theorem ne_quote_of_isSpace {c : Char} (h : Token.isSpace c = true) : c ≠ '"' := by
  simpa using of_isSpace h (fun c => c != '"') (by decide)

theorem noKey_of_head? {c : Char} (h : ∀ entry ∈ Token.table, entry.1.head? ≠ some c)
    (rest : List Char) : NoKey (c :: rest) := by
  rintro entry ⟨hmem, hfits⟩
  obtain ⟨d, span, hspan⟩ := List.exists_cons_of_ne_nil (Token.ne_nil_of_mem_table _ hmem)
  rw [hspan, List.cons_prefix_cons] at hfits
  exact h _ hmem (by rw [hspan, hfits.1]; rfl)

theorem noRule_of_isSpace {c : Char} (h : Token.isSpace c = true) (rest : List Char) :
    NoRule c rest where
  noKey := noKey_of_head? (fun entry hmem hhead =>
    not_mem_of_isSpace h entry hmem (List.mem_of_head? hhead)) rest
  notNumber := isNumeric_of_isSpace h
  notString := ne_quote_of_isSpace h
  notIdentifier := isIdentifierChar_of_isSpace h

-- ---------------------------------------------------------------------------
-- In front of a blank
-- ---------------------------------------------------------------------------

def Stops (text : List Char) : Prop := ∀ c ∈ text.head?, Token.isSpace c = true

variable {stop : List Char}

theorem prefix_stops_iff {key : List Char} (hkey : ∀ c, Token.isSpace c = true → c ∉ key)
    (hs : Stops stop) : key <+: text ++ stop ↔ key <+: text := by
  refine ⟨fun hfits => ?_, fun hfits => hfits.trans (List.prefix_append ..)⟩
  rcases List.prefix_or_prefix_of_prefix hfits (List.prefix_append text _) with hfits | ⟨tail, rfl⟩
  · exact hfits
  · rw [List.prefix_append_right_inj] at hfits
    cases tail with
    | nil => simp
    | cons c tail =>
      obtain ⟨rest, rfl⟩ := hfits
      exact absurd (by simp) (hkey c (hs c rfl))

theorem isKey_stops_iff (hs : Stops stop) : IsKey (text ++ stop) entry ↔ IsKey text entry := by
  unfold IsKey
  refine and_congr_right fun hmem => ?_
  exact prefix_stops_iff (fun c hc => not_mem_of_isSpace hc entry hmem) hs

theorem NoKey.stops (h : NoKey text) (hs : Stops stop) : NoKey (text ++ stop) := by
  intro entry hkey
  exact h entry ((isKey_stops_iff hs).1 hkey)

theorem LongestKey.stops (h : LongestKey text entry) (hs : Stops stop) :
    LongestKey (text ++ stop) entry := by
  simpa only [LongestKey, isKey_stops_iff hs] using h

theorem WholeRun.stops (h : WholeRun inRun run rest) (hs : Stops stop)
    (hin : ∀ c, Token.isSpace c = true → inRun c = false) :
    WholeRun inRun run (rest ++ stop) where
  nonempty := h.nonempty
  inside := h.inside
  maximal := by
    cases rest with
    | nil => exact fun c hc => hin c (hs c hc)
    | cons c rest => exact h.maximal

theorem Lexeme.stops (h : Lexeme kind text span rest) (hs : Stops stop) :
    Lexeme kind text span (rest ++ stop) := by
  cases h with
  | key longest shown =>
    refine .key ?_ shown
    simpa using longest.stops hs
  | number noKey run =>
    refine .number ?_ (run.stops hs fun _ => isNumeric_of_isSpace)
    simpa using noKey.stops hs
  | string noKey closed inLine =>
    refine .string ?_ closed inLine
    simpa using noKey.stops hs
  | identifier noKey notNumber run =>
    refine .identifier ?_ notNumber (run.stops hs fun _ => isIdentifierChar_of_isSpace)
    simpa using noKey.stops hs

theorem NoRule.stops (h : NoRule c text) (hs : Stops stop) : NoRule c (text ++ stop) where
  noKey := h.noKey.stops hs
  notNumber := h.notNumber
  notString := h.notString
  notIdentifier := h.notIdentifier

theorem Gap.stops (h : Gap skipped rest) (hrest : rest ≠ []) (hs : Stops stop) :
    Gap skipped (rest ++ stop) := by
  induction h with
  | none => exact .none
  | blank blank _ ih => exact .blank blank (ih hrest)
  | comment inLine _ ih => exact .comment inLine (ih hrest)
  | lastComment => exact absurd rfl hrest
  | dropped noRule _ ih =>
    refine .dropped ?_ (ih hrest)
    simpa using noRule.stops hs

theorem gap_of_blanks (h : ∀ c ∈ blanks, Token.isSpace c = true) : Gap blanks rest := by
  induction blanks with
  | nil => exact .none
  | cons c blanks ih =>
    obtain ⟨hc, hblanks⟩ := List.forall_mem_cons.1 h
    exact .blank hc (ih hblanks)

end Rech.Lexing
