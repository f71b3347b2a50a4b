import Rech.Proofs.Token.Blanks
import Rech.Proofs.Token.Exact

/-!
# Texts that are put together

A newline is a blank that ends a comment as well, and no string goes on behind
it. So a text in front of a newline is cut, or breaks off, as it does alone, and
the text behind does what it does alone, with its lines raised.
-/

namespace Rech

def Token.raise (lines : Int) (token : Token) : Token :=
  { token with place := token.place.raise lines }

def SyntaxError.raise (lines : Int) (error : SyntaxError) : SyntaxError :=
  { error with place := error.place.map (Place.raise lines) }

namespace Lexing

theorem stops_newline (more : List Char) : Stops ('\n' :: more) := by
  rintro c ⟨⟩
  rfl

theorem Gap.join (h : Gap text []) (h' : Gap skipped rest) :
    Gap (text ++ '\n' :: skipped) rest := by
  generalize hend : ([] : List Char) = rear at h
  induction h with
  -- A comment takes the newline of the seam, and any other gap has it as a blank.
  | none => exact .blank (by decide) h'
  | blank blank _ ih => exact .blank blank (ih hend)
  | comment inLine _ ih =>
    have := Gap.comment inLine (ih hend)
    simpa using this
  | lastComment inLine => exact .comment inLine h'
  | dropped noRule _ ih =>
    subst hend
    rw [List.append_nil] at noRule
    refine .dropped ?_ (ih rfl)
    simpa using noRule.stops (stops_newline (skipped ++ rest))

/-- What stands before a newline raises the lines behind it. -/
theorem Segmented.behind_newline (h : Segmented before source tokens) (text : List Char) :
    Segmented (text ++ '\n' :: before) source (tokens.map (Token.raise (Place.linesOf text))) := by
  induction h with
  | @last last before gap =>
    have hlast : Segmented (text ++ '\n' :: before) last _ := .last gap
    rwa [List.append_assoc, List.cons_append, Place.behind_newline] at hlast
  | @token skipped span rest kind shown before tokens gap lexeme _ ih =>
    rw [← List.cons_append, ← List.append_assoc] at ih
    have htoken := Segmented.token gap lexeme ih
    rwa [List.append_assoc, List.cons_append, Place.behind_newline] at htoken

theorem Broken.behind_newline (h : Broken before source tokens place) (text : List Char) :
    Broken (text ++ '\n' :: before) source (tokens.map (Token.raise (Place.linesOf text)))
      (place.raise (Place.linesOf text)) := by
  induction h with
  | @unclosed skipped opened rest before gap unclosed =>
    have hunclosed : Broken (text ++ '\n' :: before) _ _ _ := .unclosed gap unclosed
    rwa [List.append_assoc, List.cons_append, Place.behind_newline] at hunclosed
  | @token skipped span rest kind shown before tokens place gap lexeme _ ih =>
    rw [← List.cons_append, ← List.append_assoc] at ih
    have htoken := Broken.token gap lexeme ih
    rwa [List.append_assoc, List.cons_append, Place.behind_newline] at htoken

/-- A text in front of a newline is cut as it is alone, but for its end. What is
read behind it may be anything that a gap and a lexeme can be put before. -/
theorem Segmented.join_of (Reads : List Char → List Char → List Token → Prop)
    (gapped : ∀ {before text more others}, Gap text [] →
      Reads (before ++ text ++ ['\n']) more others → Reads before (text ++ '\n' :: more) others)
    (token : ∀ {before skipped span rest kind text others}, Gap skipped (span ++ rest) →
      Lexeme kind text span rest → Reads (before ++ (skipped ++ span)) rest others →
        Reads before (skipped ++ (span ++ rest))
          (⟨kind, String.ofList text, .behind (before ++ skipped)⟩ :: others))
    (h : Segmented before source tokens) (h' : Reads (before ++ source ++ ['\n']) more others) :
    Reads before (source ++ '\n' :: more) (tokens.dropLast ++ others) := by
  induction h with
  | last gap => exact gapped gap h'
  | @token skipped span rest kind text before tokens gap lexeme others ih =>
    have hne : span ++ rest ≠ [] := by simp [lexeme.span_ne_nil]
    have hgap : Gap skipped (span ++ (rest ++ '\n' :: more)) := by
      rw [← List.append_assoc]
      exact gap.stops hne (stops_newline more)
    have htoken := token hgap (lexeme.stops (stops_newline more)) (ih (by simpa using h'))
    simpa [List.dropLast_cons_of_ne_nil others.ne_nil] using htoken

theorem Segmented.gapped (gap : Gap text [])
    (h : Segmented (before ++ text ++ ['\n']) more others) :
    Segmented before (text ++ '\n' :: more) others := by
  cases h with
  | last gap' =>
    have hlast : Segmented before _ _ := .last (gap.join gap')
    simpa using hlast
  | token gap' lexeme others =>
    have htoken : Segmented before _ _ := .token (gap.join gap') lexeme (by simpa using others)
    simpa using htoken

theorem Broken.gapped (gap : Gap text [])
    (h : Broken (before ++ text ++ ['\n']) more others place) :
    Broken before (text ++ '\n' :: more) others place := by
  cases h with
  | unclosed gap' unclosed =>
    have hunclosed : Broken before _ _ _ := .unclosed (gap.join gap') unclosed
    simpa using hunclosed
  | token gap' lexeme others =>
    have htoken : Broken before _ _ _ := .token (gap.join gap') lexeme (by simpa using others)
    simpa using htoken

theorem Segmented.join (h : Segmented before source tokens)
    (h' : Segmented (before ++ source ++ ['\n']) more others) :
    Segmented before (source ++ '\n' :: more) (tokens.dropLast ++ others) :=
  h.join_of Segmented Segmented.gapped .token h'

theorem Segmented.join_broken (h : Segmented before source tokens)
    (h' : Broken (before ++ source ++ ['\n']) more others place) :
    Broken before (source ++ '\n' :: more) (tokens.dropLast ++ others) place :=
  h.join_of (fun before source tokens => Broken before source tokens place) Broken.gapped .token h'

theorem Unclosed.join (h : Unclosed text rest) (more : List Char) :
    Unclosed text (rest ++ '\n' :: more) where
  noKey := by simpa using h.noKey.stops (stops_newline more)
  inside := h.inside
  stopped := by
    cases rest with
    | nil => simp
    | cons c rest => exact h.stopped

theorem Broken.join (h : Broken before source tokens place) (more : List Char) :
    Broken before (source ++ '\n' :: more) tokens place := by
  induction h with
  | @unclosed skipped text rest before gap unclosed =>
    have hgap := gap.stops (List.cons_ne_nil _ _) (stops_newline more)
    rw [List.append_assoc, List.cons_append, List.append_assoc]
    exact .unclosed (by simpa using hgap) (unclosed.join more)
  | @token skipped span rest kind text before tokens place gap lexeme _ ih =>
    have hgap := gap.stops (by simp [lexeme.span_ne_nil]) (stops_newline more)
    rw [List.append_assoc, List.append_assoc]
    exact .token (by simpa using hgap) (lexeme.stops (stops_newline more)) ih

end Lexing

theorem Token.ofSource_join {source more : List Char} {tokens others : List Token}
    (h : Token.ofSource source = .ok tokens) (h' : Token.ofSource more = .ok others) :
    Token.ofSource (source ++ '\n' :: more) =
      .ok (tokens.dropLast ++ others.map (Token.raise (Place.linesOf source))) := by
  rw [Token.ofSource_eq_ok_iff] at h h' ⊢
  exact h.join (h'.behind_newline source)

/-- Reading two texts with a newline between them: the error of the first one
comes first and is as it is alone, then comes that of the other with its line
raised, and without an error their tokens follow each other, the end of the
first one left out. -/
theorem Token.ofSource_newline (source more : List Char) :
    Token.ofSource (source ++ '\n' :: more) = (do
      let tokens ← Token.ofSource source
      let others ← (Token.ofSource more).mapError (SyntaxError.raise (Place.linesOf source))
      return tokens.filter (·.kind ≠ .endOfFile) ++
        others.map (Token.raise (Place.linesOf source))) := by
  cases h : Token.ofSource source with
  | error error =>
    obtain ⟨tokens, place, hbroken, rfl⟩ := ofSource_eq_error_iff.1 h
    exact ofSource_eq_error_iff.2 ⟨_, _, hbroken.join more, rfl⟩
  | ok tokens =>
    cases h' : Token.ofSource more with
    | error error =>
      obtain ⟨others, place, hbroken, rfl⟩ := ofSource_eq_error_iff.1 h'
      have hcut := ofSource_eq_ok_iff.1 h
      exact ofSource_eq_error_iff.2
        ⟨_, _, hcut.join_broken (hbroken.behind_newline source), rfl⟩
    | ok others =>
      have hends := (ofSource_eq_ok_iff.1 h).endsOnce
      rw [ofSource_join h h', ← hends.filter_eq]
      rfl

end Rech
