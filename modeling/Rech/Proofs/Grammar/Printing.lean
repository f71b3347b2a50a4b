import Rech.Proofs.Grammar.Source
import Rech.Proofs.Tree.Words

/-!
# What is printed is read back

The words of a tree that can be written are words that can be written, and they
spell the tree. So the text of a program is read as the program.
-/

namespace Rech

open Token (Word)

/-- The levels of the operators that bind as weakly as a rank, or stronger. -/
def Level.within : Nat → List Level
  | 0 => []
  | 1 => [multiplicative]
  | 2 => [additive, multiplicative]
  | _ => all

theorem Expr.Derives.within_succ (h : Derives anchor (Level.within n) w e) :
    Derives anchor (Level.within (n + 1)) w e := by
  match n with
  | 0 | 1 | 2 => exact .single h
  | n + 3 => exact h

theorem Expr.Derives.within (h : Derives anchor (Level.within m) w e) (hle : m ≤ n) :
    Derives anchor (Level.within n) w e := by
  induction hle with
  | refl => exact h
  | step _ ih => exact ih.within_succ

theorem Expr.rankOf_le (operator : String) : rankOf operator ≤ 2 := by
  unfold rankOf
  split
  · exact Nat.le_refl 2
  · exact Nat.le_succ 1

theorem Expr.rank_le (e : Expr) : e.rank ≤ 3 := by
  cases e with
  | math line left operator right => exact Nat.le_succ_of_le (rankOf_le operator)
  | _ => simp [rank]

-- ---------------------------------------------------------------------------
-- Words that spell trees
-- ---------------------------------------------------------------------------

theorem Token.word_eq_iff {token : Token} {one : Word} :
    token.word = one ↔ token.kind = one.kind ∧ token.text = one.text := by
  cases one
  simp [word]

def Token.OfWords (w : List Token) (words : List Word) : Prop := w.map word = words

theorem Token.ofWords_nil : OfWords w [] ↔ w = [] := List.map_eq_nil_iff

theorem Token.ofWords_cons {one : Word} : OfWords w (one :: words) ↔
    ∃ token rest, w = token :: rest ∧ (token.kind = one.kind ∧ token.text = one.text) ∧
      OfWords rest words := by
  simp only [OfWords, List.map_eq_cons_iff, word_eq_iff]

theorem Token.ofWords_singleton {one : Word} : OfWords w [one] ↔
    ∃ token, w = [token] ∧ token.kind = one.kind ∧ token.text = one.text := by
  simp only [OfWords, List.map_eq_singleton_iff, word_eq_iff]

theorem Token.ofWords_append : OfWords w (words ++ others) ↔
    ∃ v u, w = v ++ u ∧ OfWords v words ∧ OfWords u others :=
  List.map_eq_append_iff

variable {numerals : Numerals}

theorem Expr.derives_enclosed (h : ∀ w, Token.OfWords w bare → Derives anchor (Level.within m) w e)
    (hm : m ≤ 3) (hw : Token.OfWords w (Word.enclosed needed bare)) (hn : needed = false → m ≤ n) :
    Derives anchor (Level.within n) w e := by
  cases needed with
  | false => exact (h w hw).within (hn rfl)
  | true =>
    simp only [Word.enclosed, if_true, Token.ofWords_cons, Token.ofWords_append,
      Token.ofWords_nil] at hw
    obtain ⟨opening, _, rfl, ⟨left, -⟩, inner, _, rfl, hinner, closing, _, rfl, ⟨right, -⟩,
      rfl⟩ := hw
    have hall : Derives anchor Level.all inner e := (h inner hinner).within hm
    have hderives : Derives anchor (Level.within 0) _ e := .parenthesized left hall right
    exact hderives.within (Nat.zero_le n)

theorem Level.exists_of_math {sign : Token} (kind : sign.kind = .math)
    (h : sign.text ∈ ["+", "-", "*", "/", "%"]) :
    ∃ (level : Level) (n : Nat), Expr.rankOf sign.text = n + 1 ∧
      within (n + 1) = level :: within n ∧ level.Has sign ∧ level.node = Expr.math := by
  by_cases hadd : sign.text ∈ ["+", "-"]
  · exact ⟨additive, 1, if_pos hadd, rfl, ⟨kind, hadd⟩, rfl⟩
  · have hmul : sign.text ∈ ["*", "/", "%"] := (List.mem_append.1 h).resolve_left hadd
    exact ⟨multiplicative, 0, if_neg hadd, rfl, ⟨kind, hmul⟩, rfl⟩

theorem Expr.derives_words {e : Expr} (h : e.WellFormed) :
    ∀ w, Token.OfWords w (e.words numerals) →
      Derives (fun _ => none) (Level.within e.rank) w (e.mapLine fun _ => none) := by
  induction e with
  | identifier name =>
    intro w hw
    obtain ⟨token, rfl, kind, text⟩ := Token.ofWords_singleton.1 hw
    have : Derives (fun _ => none) [] [token] _ := .identifier kind
    rwa [text] at this
  | number line value =>
    intro w hw
    obtain ⟨token, rfl, kind, text⟩ := Token.ofWords_singleton.1 hw
    obtain ⟨numeral, hnumeral, rfl⟩ := h
    have : Derives (fun _ => none) [] [token] _ := .number kind
    rwa [text, numerals.reads numeral hnumeral] at this
  | string line content =>
    intro w hw
    obtain ⟨token, rfl, kind, text⟩ := Token.ofWords_singleton.1 hw
    have : Derives (fun _ => none) [] [token] _ := .string kind
    rwa [text] at this
  | null line spelling =>
    intro w hw
    obtain ⟨token, rfl, kind, text⟩ := Token.ofWords_singleton.1 hw
    have : Derives (fun _ => none) [] [token] _ := .null kind
    rwa [text] at this
  | negate line operand ih =>
    intro w hw
    simp only [words, Token.ofWords_cons] at hw
    obtain ⟨sign, rest, rfl, ⟨kind, text⟩, hrest⟩ := hw
    have hoperand := derives_enclosed (ih h) operand.rank_le (n := 0) hrest
      fun hn => Nat.not_lt.1 (of_decide_eq_false hn)
    exact .negate kind text hoperand
  | math line left operator right ihl ihr =>
    intro w hw
    obtain ⟨hoperator, hl, hr⟩ := h
    simp only [words, Token.ofWords_cons, Token.ofWords_append] at hw
    obtain ⟨v, _, rfl, hv, sign, u, rfl, ⟨kind, rfl⟩, hu⟩ := hw
    obtain ⟨level, n, hrank, hwithin, hsign, hnode⟩ := Level.exists_of_math kind hoperator
    -- The left operand may be of the operator's own level, the right one of tighter levels only.
    rw [hrank] at hv hu
    have hleft := derives_enclosed (ihl hl) left.rank_le hv
      fun hn => Nat.not_lt.1 (of_decide_eq_false hn)
    have hright := derives_enclosed (ihr hr) right.rank_le hu
      fun hn => Nat.lt_succ_iff.1 (Nat.not_le.1 (of_decide_eq_false hn))
    rw [hwithin] at hleft
    have happlied := Derives.applied hleft hsign hright
    rw [hnode, ← hwithin, ← hrank] at happlied
    exact happlied
  | comparison line left operator right ihl ihr =>
    intro w hw
    obtain ⟨hoperator, hl, hr⟩ := h
    simp only [words, Token.ofWords_cons, Token.ofWords_append] at hw
    obtain ⟨v, _, rfl, hv, sign, u, rfl, ⟨kind, rfl⟩, hu⟩ := hw
    have hleft := derives_enclosed (ihl hl) left.rank_le (n := 3) hv fun _ => left.rank_le
    have hright := derives_enclosed (ihr hr) right.rank_le (n := 2) hu
      fun hn => Nat.lt_succ_iff.1 (Nat.not_le.1 (of_decide_eq_false hn))
    have hsign : Level.comparison.Has sign := ⟨kind, hoperator⟩
    exact Derives.applied hleft hsign hright
  | foreign line kind => exact h.elim

theorem Expr.derives_all_words {e : Expr} (h : e.WellFormed)
    (hw : Token.OfWords w (e.words numerals)) :
    Derives (fun _ => none) Level.all w (e.mapLine fun _ => none) :=
  (derives_words h w hw).within e.rank_le

theorem Assignment.derives_words {assigned : Assignment} (h : assigned.WellFormed)
    (hw : Token.OfWords w (assigned.words numerals)) :
    Assignment.Derives (fun _ => none) w (assigned.mapLine fun _ => none) := by
  simp only [words, Token.ofWords_cons] at hw
  obtain ⟨name, _, rfl, ⟨target, text⟩, sign, v, rfl, ⟨equals, -⟩, hv⟩ := hw
  have := Derives.mk target equals (Expr.derives_all_words h.value hv)
  rwa [text] at this

theorem Token.exists_semicolon (hw : OfWords w (words ++ [.semicolon])) :
    ∃ v closing, w = v ++ [closing] ∧ OfWords v words ∧ closing.kind = .semicolon := by
  obtain ⟨v, u, rfl, hv, hu⟩ := ofWords_append.1 hw
  obtain ⟨closing, rfl, ended, -⟩ := ofWords_singleton.1 hu
  exact ⟨v, closing, rfl, hv, ended⟩

theorem Token.exists_phrase {one : Word} (hw : OfWords w (one :: (words ++ [.semicolon]))) :
    ∃ word v closing, w = word :: (v ++ [closing]) ∧ word.kind = one.kind ∧ OfWords v words ∧
      closing.kind = .semicolon := by
  obtain ⟨word, rest, rfl, ⟨keyword, -⟩, hrest⟩ := ofWords_cons.1 hw
  obtain ⟨v, closing, rfl, hv, ended⟩ := exists_semicolon hrest
  exact ⟨word, v, closing, rfl, keyword, hv, ended⟩

mutual
theorem Stmt.derives_words : (s : Stmt) → s.WellFormed → ∀ w, Token.OfWords w (s.words numerals) →
    Stmt.Derives (fun _ => none) w (s.mapLine fun _ => none)
  | .block inner, h, w, hw => .block (Block.derives_words inner h w hw)
  | .choice first, h, w, hw => .choice (Choice.derives_words first h w hw)
  | .print line value, h, w, hw => by
    obtain ⟨word, v, closing, rfl, keyword, hv, ended⟩ := Token.exists_phrase hw
    exact .print keyword (Expr.derives_all_words h hv) ended
  | .return line none, h, w, hw => by
    obtain ⟨word, rest, rfl, ⟨keyword, -⟩, hrest⟩ := Token.ofWords_cons.1 hw
    obtain ⟨closing, rfl, ended, -⟩ := Token.ofWords_singleton.1 hrest
    exact .returnNothing keyword ended
  | .return line (some value), h, w, hw => by
    obtain ⟨word, v, closing, rfl, keyword, hv, ended⟩ := Token.exists_phrase hw
    exact .returnValue keyword (Expr.derives_all_words (h value rfl) hv) ended
  | .declaration declared, h, w, hw => by
    obtain ⟨word, v, closing, rfl, keyword, hv, ended⟩ := Token.exists_phrase hw
    have := Stmt.Derives.declaration keyword (Assignment.derives_words h.init hv) ended
    simpa [Stmt.mapLine, Declaration.mapLine, Assignment.mapLine, Identifier.mapLine, h.same]
      using this
  | .assignment assigned, h, w, hw => by
    obtain ⟨v, closing, rfl, hv, ended⟩ := Token.exists_semicolon hw
    exact .assignment (Assignment.derives_words h hv) ended
  | .expression value, h, w, hw => by
    obtain ⟨v, closing, rfl, hv, ended⟩ := Token.exists_semicolon hw
    exact .expression (Expr.derives_all_words h hv) ended

theorem Block.derives_words : (b : Block) → b.WellFormed →
    ∀ w, Token.OfWords w (b.words numerals) →
      Block.Derives (fun _ => none) w (b.mapLine fun _ => none)
  | .mk line body, h, w, hw => by
    simp only [Block.words, Token.ofWords_cons, Token.ofWords_append, Token.ofWords_nil] at hw
    obtain ⟨opening, _, rfl, ⟨left, -⟩, v, _, rfl, hv, closing, _, rfl, ⟨right, -⟩, rfl⟩ := hw
    exact .mk left (Stmt.derivesAll_words body h v hv) right

theorem Choice.derives_words : (c : Choice) → c.WellFormed →
    ∀ w, Token.OfWords w (c.words numerals) →
      Choice.Derives (fun _ => none) w (c.mapLine fun _ => none)
  | .mk line condition body otherwise, ⟨hcondition, hbody, hotherwise⟩, w, hw => by
    simp only [Choice.words, Token.ofWords_cons, Token.ofWords_append] at hw
    obtain ⟨word, _, rfl, ⟨keyword, -⟩, opening, _, rfl, ⟨left, -⟩, compared, _, rfl, hcompared,
      closing, _, rfl, ⟨right, -⟩, v, u, rfl, hv, hu⟩ := hw
    have hderives := Expr.derives_all_words hcondition hcompared
    rw [Comparison.mapLine_toExpr] at hderives
    exact .mk keyword left hderives right (Block.derives_words body hbody v hv)
      (Otherwise.derives_words otherwise hotherwise u hu)

theorem Otherwise.derives_words : (o : Otherwise) → o.WellFormed →
    ∀ w, Token.OfWords w (o.words numerals) →
      Otherwise.Derives (fun _ => none) w (o.mapLine fun _ => none)
  | .nothing, _, w, hw => by
    obtain rfl := Token.ofWords_nil.1 hw
    exact .nothing
  | .block chosen, h, w, hw => by
    obtain ⟨word, v, rfl, ⟨keyword, -⟩, hv⟩ := Token.ofWords_cons.1 hw
    exact .block keyword (Block.derives_words chosen h v hv)
  | .choice chosen, h, w, hw => by
    obtain ⟨word, v, rfl, ⟨keyword, -⟩, hv⟩ := Token.ofWords_cons.1 hw
    exact .choice keyword (Choice.derives_words chosen h v hv)

theorem Stmt.derivesAll_words : (body : List Stmt) → Stmt.AllWellFormed body →
    ∀ w, Token.OfWords w (Stmt.allWords numerals body) →
      Stmt.DerivesAll (fun _ => none) w (Stmt.mapLines (fun _ => none) body)
  | [], _, w, hw => by
    obtain rfl := Token.ofWords_nil.1 hw
    exact .nil
  | s :: others, ⟨hs, hothers⟩, w, hw => by
    obtain ⟨v, u, rfl, hv, hu⟩ := Token.ofWords_append.1 hw
    exact .cons (Stmt.derives_words s hs v hv) (Stmt.derivesAll_words others hothers u hu)
end

-- ---------------------------------------------------------------------------
-- The words can be written
-- ---------------------------------------------------------------------------

def Token.Word.fixed : List Word :=
  [ifWord, elseWord, printWord, returnWord, letWord, assign, minus, semicolon, leftParen,
    rightParen, leftBrace, rightBrace]

theorem Token.Word.writable_of_fixed : ∀ one ∈ fixed, one.Writable := by
  have hlisted : (fixed.all fun one => table.contains (one.text.toList, one.kind) &&
      one.kind != .comment) = true := by
    decide +kernel
  intro one hmem
  have hone := List.all_eq_true.1 hlisted one hmem
  rw [Bool.and_eq_true, List.contains_iff_mem, bne_iff_ne] at hone
  exact .key hone.1 hone.2

theorem Token.Word.writable_of_math (h : operator ∈ ["+", "-", "*", "/", "%"]) :
    Writable ⟨.math, operator⟩ := by
  have hlisted : ∀ text ∈ ["+", "-", "*", "/", "%"], (text.toList, .math) ∈ table := by
    decide +kernel
  exact .key (hlisted _ h) (by simp)

theorem Token.Word.writable_of_comparison
    (h : operator ∈ ["==", "===", "<", ">", "<=", ">=", "!=", "!=="]) :
    Writable ⟨.comparison, operator⟩ := by
  have hlisted : ∀ text ∈ ["==", "===", "<", ">", "<=", ">=", "!=", "!=="],
      (text.toList, .comparison) ∈ table := by
    decide +kernel
  exact .key (hlisted _ h) (by simp)

def Token.Word.AllWritable (words : List Word) : Prop := ∀ one ∈ words, one.Writable

namespace Token.Word

theorem allWritable_nil : AllWritable [] := by
  simp [AllWritable]

theorem allWritable_cons : AllWritable (one :: words) ↔ one.Writable ∧ AllWritable words :=
  List.forall_mem_cons

theorem allWritable_append :
    AllWritable (words ++ others) ↔ AllWritable words ∧ AllWritable others :=
  List.forall_mem_append

theorem allWritable_fixed (h : one ∈ fixed) (hw : AllWritable words) :
    AllWritable (one :: words) :=
  allWritable_cons.2 ⟨writable_of_fixed one h, hw⟩

theorem allWritable_enclosed (h : AllWritable words) : AllWritable (enclosed needed words) := by
  cases needed with
  | false => exact h
  | true =>
    refine allWritable_fixed (by simp [fixed]) (allWritable_append.2 ⟨h, ?_⟩)
    exact allWritable_fixed (by simp [fixed]) allWritable_nil

end Token.Word

open Token.Word

theorem Expr.allWritable_words {e : Expr} (h : e.WellFormed) :
    AllWritable (e.words numerals) := by
  induction e with
  | identifier name => exact allWritable_cons.2 ⟨.identifier rfl h, allWritable_nil⟩
  | number line value =>
    obtain ⟨numeral, hnumeral, rfl⟩ := h
    exact allWritable_cons.2 ⟨.number rfl (numerals.numeral numeral hnumeral), allWritable_nil⟩
  | string line content => exact allWritable_cons.2 ⟨.string rfl h, allWritable_nil⟩
  | null line spelling =>
    obtain rfl : spelling = "ничто" := h
    exact allWritable_cons.2 ⟨.key (by decide +kernel) (by decide), allWritable_nil⟩
  | negate line operand ih =>
    exact allWritable_fixed (by simp [fixed]) (allWritable_enclosed (ih h))
  | math line left operator right ihl ihr =>
    obtain ⟨hoperator, hl, hr⟩ := h
    refine allWritable_append.2 ⟨allWritable_enclosed (ihl hl), ?_⟩
    exact allWritable_cons.2 ⟨writable_of_math hoperator, allWritable_enclosed (ihr hr)⟩
  | comparison line left operator right ihl ihr =>
    obtain ⟨hoperator, hl, hr⟩ := h
    refine allWritable_append.2 ⟨allWritable_enclosed (ihl hl), ?_⟩
    exact allWritable_cons.2 ⟨writable_of_comparison hoperator, allWritable_enclosed (ihr hr)⟩
  | foreign line kind => exact h.elim

theorem Assignment.allWritable_words {assigned : Assignment} (h : assigned.WellFormed) :
    AllWritable (assigned.words numerals) :=
  allWritable_cons.2 ⟨.identifier rfl h.target,
    allWritable_fixed (by simp [fixed]) (Expr.allWritable_words h.value)⟩

theorem Token.Word.allWritable_semicolon (h : AllWritable words) :
    AllWritable (words ++ [semicolon]) :=
  allWritable_append.2 ⟨h, allWritable_fixed (by simp [fixed]) allWritable_nil⟩

theorem Token.Word.allWritable_phrase (hfixed : one ∈ fixed) (h : AllWritable words) :
    AllWritable (one :: (words ++ [semicolon])) :=
  allWritable_fixed hfixed (allWritable_semicolon h)

mutual
theorem Stmt.allWritable_words : (s : Stmt) → s.WellFormed → AllWritable (s.words numerals)
  | .block inner, h => Block.allWritable_words inner h
  | .choice first, h => Choice.allWritable_words first h
  | .print _ value, h => allWritable_phrase (by simp [fixed]) (Expr.allWritable_words h)
  | .return _ none, _ =>
    allWritable_fixed (by simp [fixed]) (allWritable_fixed (by simp [fixed]) allWritable_nil)
  | .return _ (some value), h =>
    allWritable_phrase (by simp [fixed]) (Expr.allWritable_words (h value rfl))
  | .declaration declared, h =>
    allWritable_phrase (by simp [fixed]) (Assignment.allWritable_words h.init)
  | .assignment assigned, h => allWritable_semicolon (Assignment.allWritable_words h)
  | .expression value, h => allWritable_semicolon (Expr.allWritable_words h)

theorem Block.allWritable_words : (b : Block) → b.WellFormed → AllWritable (b.words numerals)
  | .mk _ body, h => by
    refine allWritable_fixed (by simp [fixed]) (allWritable_append.2 ⟨?_, ?_⟩)
    · exact Stmt.allWritable_allWords body h
    · exact allWritable_fixed (by simp [fixed]) allWritable_nil

theorem Choice.allWritable_words : (c : Choice) → c.WellFormed → AllWritable (c.words numerals)
  | .mk _ condition body otherwise, ⟨hcondition, hbody, hotherwise⟩ => by
    refine allWritable_fixed (by simp [fixed]) (allWritable_fixed (by simp [fixed]) ?_)
    refine allWritable_append.2 ⟨Expr.allWritable_words hcondition, ?_⟩
    refine allWritable_fixed (by simp [fixed]) (allWritable_append.2 ⟨?_, ?_⟩)
    · exact Block.allWritable_words body hbody
    · exact Otherwise.allWritable_words otherwise hotherwise

theorem Otherwise.allWritable_words : (o : Otherwise) → o.WellFormed →
    AllWritable (o.words numerals)
  | .nothing, _ => allWritable_nil
  | .block chosen, h => allWritable_fixed (by simp [fixed]) (Block.allWritable_words chosen h)
  | .choice chosen, h => allWritable_fixed (by simp [fixed]) (Choice.allWritable_words chosen h)

theorem Stmt.allWritable_allWords : (body : List Stmt) → Stmt.AllWellFormed body →
    AllWritable (Stmt.allWords numerals body)
  | [], _ => allWritable_nil
  | s :: others, ⟨hs, hothers⟩ =>
    allWritable_append.2 ⟨Stmt.allWritable_words s hs, Stmt.allWritable_allWords others hothers⟩
end

-- ---------------------------------------------------------------------------
-- Reading back
-- ---------------------------------------------------------------------------

/-- Whatever blanks are put between its words, a program is read back. -/
theorem Program.unlined_ofSource_written {program : Program} (h : program.WellFormed)
    (hw : Word.Written (program.words numerals) source) :
    (Program.ofSource source).map Program.unlined = .ok program.unlined := by
  obtain ⟨tokens, htokens, hmap⟩ := hw.ofSource (Stmt.allWritable_allWords program.body h)
  obtain ⟨shown, rest, rfl, hshown, hlast⟩ := Token.ofWords_append.1 hmap
  obtain ⟨last, rfl, -, -⟩ := Token.ofWords_singleton.1 hlast
  have hends := (Token.ofSource_eq_ok_iff.1 htokens).endsOnce
  rw [ofSource_of_tokens htokens, unlined_ofTokens_eq_ok_iff hends.endsList, hends.beforeEnd_eq,
    List.dropLast_concat]
  exact Stmt.derivesAll_words program.body h shown hshown

theorem Program.unlined_ofSource_text (numerals : Numerals) (program : Program)
    (h : program.WellFormed) :
    (Program.ofSource (program.text numerals)).map Program.unlined = .ok program.unlined :=
  unlined_ofSource_written h (Word.written_spaced _)

/-- `если ( a < b != - ( a + 1.5 ) ) { } иначе { пусть c = a - ( b - "" ) ; }` -/
def Program.sampleTree : Program :=
  ⟨[.choice (.mk none
    ⟨none, .comparison none (.identifier ⟨none, "a"⟩) "<" (.identifier ⟨none, "b"⟩), "!=",
      .negate none (.math none (.identifier ⟨none, "a"⟩) "+"
        (.number none (.ofText "1.5".toList)))⟩
    (.mk none [])
    (.block (.mk none [.declaration ⟨none, ⟨none, "c"⟩, ⟨none, ⟨none, "c"⟩,
      .math none (.identifier ⟨none, "a"⟩) "-"
        (.math none (.identifier ⟨none, "b"⟩) "-" (.string none ""))⟩⟩])))]⟩

theorem Program.unlined_ofSource_text_sample : sampleTree.WellFormed ∧
    (Program.ofSource (sampleTree.text .chosen)).map Program.unlined = .ok sampleTree.unlined := by
  have ha : Token.IsName "a" := by decide +kernel
  have hb : Token.IsName "b" := by decide +kernel
  have hc : Token.IsName "c" := by decide +kernel
  have hnumeral : Token.IsNumeral "1.5" := by decide +kernel
  have hliteral : Token.IsLiteral "" := by decide +kernel
  have hcondition : Expr.WellFormed (.comparison none
      (.comparison none (.identifier ⟨none, "a"⟩) "<" (.identifier ⟨none, "b"⟩)) "!="
      (.negate none (.math none (.identifier ⟨none, "a"⟩) "+"
        (.number none (.ofText "1.5".toList))))) :=
    ⟨by decide, ⟨by decide, ha, hb⟩, by decide, ha, "1.5", hnumeral, rfl⟩
  have h : sampleTree.WellFormed :=
    ⟨⟨hcondition, trivial, ⟨⟨hc, by decide, ha, by decide, hb, hliteral⟩, rfl⟩, trivial⟩, trivial⟩
  exact ⟨h, Program.unlined_ofSource_text .chosen sampleTree h⟩

end Rech
