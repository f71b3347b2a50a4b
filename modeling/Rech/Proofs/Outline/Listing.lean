import Rech.Proofs.Grammar.Vocabulary
import Rech.Proofs.Outline.Bracketed
import Rech.Proofs.Outline.Tree

/-!
# Listings of programs

No token of a text leaves its line and all names of fields are keys, so the outline of
a program that was read from a text can be read. Either form of it then tells the
program up to lines.
-/

namespace Rech

open Text (InLine)

theorem Binary64.inLine_inspect (x : Binary64) : InLine x.inspect := by
  have hchars : '\n' ∉ numberChars ++ (inspected.nan ++ inspected.infinite) := by decide
  intro hmem
  rw [toList_inspect] at hmem
  rw [List.mem_append, List.mem_append] at hchars
  exact hchars (lawful_inspected.mem_shown hmem)

-- ---------------------------------------------------------------------------
-- Nodes
-- ---------------------------------------------------------------------------

namespace Outline

theorem Legible.text (h : InLine content) : Legible (.text content) := .scalar rfl h

theorem legible_number (value : Binary64) : Legible (.number value) :=
  .scalar rfl value.inLine_inspect

theorem legible_absent : Legible .absent := .scalar rfl (by decide)

def LegibleFields (fields : List (String × Outline)) : Prop :=
  ∀ field ∈ fields, IsKey field.1 ∧ Legible field.2

theorem LegibleFields.nil : LegibleFields [] := List.forall_mem_nil _

theorem LegibleFields.cons (hkey : IsKey key) (hvalue : Legible value)
    (h : LegibleFields fields) : LegibleFields ((key, value) :: fields) :=
  List.forall_mem_cons.2 ⟨⟨hkey, hvalue⟩, h⟩

theorem Legible.node (kind : String) (hkind : InLine kind) (h : LegibleFields fields) :
    Legible (.node kind fields) := by
  have hall : LegibleFields (("type", .text kind) :: fields) := .cons (by decide) (.text hkind) h
  exact .map (List.cons_ne_nil _ _) (fun field hfield => (hall field hfield).1)
    fun field hfield => (hall field hfield).2

theorem Legible.operation (kind : String) (hkind : InLine kind) (hsign : InLine sign)
    (hl : Legible l) (hr : Legible r) : Legible (.operation kind sign l r) :=
  .node kind hkind
    (.cons (by decide) (.text hsign) (.cons (by decide) hl (.cons (by decide) hr .nil)))

end Outline

open Outline (Legible LegibleFields)

-- ---------------------------------------------------------------------------
-- Trees
-- ---------------------------------------------------------------------------

variable {anchor : Token → Option Int}

theorem Identifier.legible (name : Identifier) (h : InLine name.symbol) : name.outline.Legible :=
  .node "Identifier" (by decide) (.cons (by decide) (.text h) .nil)

theorem Level.legible_node (level : Level) (hsign : InLine sign) (hl : l.outline.Legible)
    (hr : r.outline.Legible) (line : Option Int) :
    (level.node line l sign r).outline.Legible := by
  cases level with
  | comparison => exact .operation "ComparisonOperation" (by decide) hsign hl hr
  | additive | multiplicative => exact .operation "MathOperation" (by decide) hsign hl hr

theorem Expr.Derives.legible (h : Expr.Derives anchor levels w e)
    (hw : ∀ token ∈ w, InLine token.text) : e.outline.Legible := by
  induction h with
  | number =>
    exact .node "NumericLiteral" (by decide) (.cons (by decide) (Outline.legible_number _) .nil)
  | string =>
    exact .node "StringLiteral" (by decide)
      (.cons (by decide) (.text (hw _ List.mem_cons_self)) .nil)
  | null =>
    exact .node "NullLiteral" (by decide) (.cons (by decide) (.text (hw _ List.mem_cons_self)) .nil)
  | identifier => exact Identifier.legible _ (hw _ List.mem_cons_self)
  | negate _ _ _ ih =>
    exact .node "UnaryMinusExpression" (by decide)
      (.cons (by decide) (ih (List.forall_mem_cons.1 hw).2) .nil)
  | parenthesized _ _ _ ih =>
    exact ih fun token htoken => hw token (by simp [htoken])
  | single _ ih => exact ih hw
  | applied _ _ _ ihl ihr =>
    obtain ⟨hv, hrest⟩ := List.forall_mem_append.1 hw
    obtain ⟨hsign, hw⟩ := List.forall_mem_cons.1 hrest
    exact Level.legible_node _ hsign (ihl hv) (ihr hw) _

theorem Assignment.Derives.legible (h : Assignment.Derives anchor w a)
    (hw : ∀ token ∈ w, InLine token.text) : a.target.outline.Legible ∧ a.outline.Legible := by
  cases h with
  | @mk w e name sign target equals value =>
    obtain ⟨hname, hrest⟩ := List.forall_mem_cons.1 hw
    have htarget := Identifier.legible ⟨anchor name, name.text⟩ hname
    have hvalue := value.legible (List.forall_mem_cons.1 hrest).2
    exact ⟨htarget, .node "AssignmentOperation" (by decide)
      (.cons (by decide) htarget (.cons (by decide) hvalue .nil))⟩

theorem Stmt.scalar?_outline (s : Stmt) : s.outline.scalar? = none := by
  cases s with
  | block inner => cases inner; rfl
  | choice first => cases first; rfl
  | expression value => cases value <;> rfl
  | print | «return» | declaration | assignment => rfl

theorem Stmt.legible_outlines (h : ∀ outline ∈ Stmt.outlines body, outline.Legible) :
    (Outline.list (Stmt.outlines body)).Legible := by
  refine .list (fun outline houtline => ?_) h
  obtain ⟨s, -, rfl⟩ := List.mem_map.1 (Stmt.outlines_eq_map body ▸ houtline)
  exact s.scalar?_outline

mutual
theorem Stmt.Derives.legible : Stmt.Derives anchor w s → (∀ token ∈ w, InLine token.text) →
    s.outline.Legible
  | .block inner, hw => inner.legible hw
  | .choice first, hw => first.legible hw
  | .print _ value _, hw =>
    .node "PrintStatement" (by decide) (.cons (by decide)
      (value.legible fun token h => hw token (by simp [h])) .nil)
  | .returnNothing _ _, _ =>
    .node "ReturnStatement" (by decide) (.cons (by decide) Outline.legible_absent .nil)
  | .returnValue _ value _, hw =>
    .node "ReturnStatement" (by decide) (.cons (by decide)
      (value.legible fun token h => hw token (by simp [h])) .nil)
  | .declaration _ init _, hw =>
    have ⟨htarget, hinit⟩ := init.legible fun token h => hw token (by simp [h])
    .node "VarDeclaration" (by decide) (.cons (by decide) htarget (.cons (by decide) hinit .nil))
  | .assignment assigned _, hw => (assigned.legible fun token h => hw token (by simp [h])).2
  | .expression value _, hw => value.legible fun token h => hw token (by simp [h])

theorem Block.Derives.legible : Block.Derives anchor w b → (∀ token ∈ w, InLine token.text) →
    b.outline.Legible
  | .mk _ body _, hw =>
    have hbody := Stmt.legible_outlines (body.legible fun token h => hw token (by simp [h]))
    .node "BlockStatement" (by decide) (.cons (by decide) hbody .nil)

theorem Choice.Derives.legible : Choice.Derives anchor w c → (∀ token ∈ w, InLine token.text) →
    c.outline.Legible
  | .mk _ _ compared _ body otherwise, hw =>
    have hcompared := compared.legible fun token h => hw token (by simp [h])
    have hbody := body.legible fun token h => hw token (by simp [h])
    have hotherwise := otherwise.legible fun token h => hw token (by simp [h])
    .node "IfStatement" (by decide) (.cons (by decide) hcompared
      (.cons (by decide) hbody (.cons (by decide) hotherwise .nil)))

theorem Otherwise.Derives.legible : Otherwise.Derives anchor w o →
    (∀ token ∈ w, InLine token.text) → o.outline.Legible
  | .nothing, _ => Outline.legible_absent
  | .block _ chosen, hw => chosen.legible fun token h => hw token (by simp [h])
  | .choice _ chosen, hw => chosen.legible fun token h => hw token (by simp [h])

theorem Stmt.DerivesAll.legible : Stmt.DerivesAll anchor w body →
    (∀ token ∈ w, InLine token.text) → ∀ outline ∈ Stmt.outlines body, outline.Legible
  | .nil, _ => List.forall_mem_nil _
  | .cons first others, hw =>
    have ⟨hfirst, hothers⟩ := List.forall_mem_append.1 hw
    List.forall_mem_cons.2 ⟨first.legible hfirst, others.legible hothers⟩
end

theorem Program.legible_ofSource {source : List Char} {program : Program}
    (h : Program.ofSource source = .ok program) : program.outline.Legible := by
  obtain ⟨tokens, htokens, hderives⟩ := ofSource_eq_ok_iff.1 h
  have hwords : ∀ token ∈ tokens, InLine token.text := fun token htoken =>
    Token.Word.In.inLine ⟨tokens, htokens, List.mem_map_of_mem htoken⟩
  have hbody := Stmt.legible_outlines (hderives.legible fun token htoken =>
    hwords token (List.dropLast_subset _ htoken))
  exact .node "Program" (by decide) (.cons (by decide) hbody .nil)

/-- Two programs have the same indented form, and the same bracketed form, just when
they are the same up to lines. -/
theorem Program.outline_faithful {source other : List Char} {p q : Program}
    (hp : Program.ofSource source = .ok p) (hq : Program.ofSource other = .ok q) :
    (p.outline.indented 0 = q.outline.indented 0 ↔ p.unlined = q.unlined) ∧
    (p.outline.json 0 = q.outline.json 0 ↔ p.unlined = q.unlined) := by
  have houtline (h : p.unlined = q.unlined) : p.outline = q.outline := by
    rw [← p.outline_unlined, h, q.outline_unlined]
  refine ⟨⟨fun h => unlined_of_shown ?_, fun h => by rw [houtline h]⟩,
    ⟨fun h => unlined_of_shown ?_, fun h => by rw [houtline h]⟩⟩
  · exact Outline.shown_eq_of_indented (legible_ofSource hp) (legible_ofSource hq) rfl rfl
      (Int.le_refl 0) h
  · rw [Outline.json_inj h]

/-- Parentheses and lines are in neither form. -/
theorem Program.outline_faithful_parentheses :
    let p : Program := ⟨[.expression (.identifier ⟨some 1, "a"⟩)]⟩
    let q : Program := ⟨[.expression (.identifier ⟨some 2, "a"⟩)]⟩
    (Program.ofSource "(a);".toList = .ok p ∧ Program.ofSource "\na;".toList = .ok q) ∧
    p.unlined = q.unlined ∧ p.outline.indented 0 = q.outline.indented 0 ∧
    p.outline.json 0 = q.outline.json 0 := by
  intro p q
  have hone : Token.ofSource "(a);".toList =
      .ok [⟨.leftParen, "(", ⟨1, 1⟩⟩, ⟨.identifier, "a", ⟨1, 2⟩⟩, ⟨.rightParen, ")", ⟨1, 3⟩⟩,
        ⟨.semicolon, ";", ⟨1, 4⟩⟩, ⟨.endOfFile, "\x00", ⟨1, 5⟩⟩] := by
    decide +kernel
  have hother : Token.ofSource "\na;".toList =
      .ok [⟨.identifier, "a", ⟨2, 1⟩⟩, ⟨.semicolon, ";", ⟨2, 2⟩⟩,
        ⟨.endOfFile, "\x00", ⟨2, 3⟩⟩] := by
    decide +kernel
  have hp : Program.ofSource "(a);".toList = .ok p := (Program.ofSource_of_tokens hone).trans rfl
  have hq : Program.ofSource "\na;".toList = .ok q := (Program.ofSource_of_tokens hother).trans rfl
  have hsame : p.unlined = q.unlined := rfl
  obtain ⟨hindented, hjson⟩ := Program.outline_faithful hp hq
  exact ⟨⟨hp, hq⟩, hsame, hindented.2 hsame, hjson.2 hsame⟩

end Rech
