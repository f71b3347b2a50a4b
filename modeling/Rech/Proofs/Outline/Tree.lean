import Rech.Outline.Tree
import Rech.Proofs.Binary64.Display
import Rech.Proofs.Outline.Indented
import Rech.Proofs.Tree.Lines

/-!
# What outlines show of trees

A node has its kind first, and its kind and the number of its fields tell what it is.
So trees with outlines that show the same are the same up to lines. Lines are in no
outline.
-/

namespace Rech

-- ---------------------------------------------------------------------------
-- Nodes
-- ---------------------------------------------------------------------------

namespace Outline

def shape? : Outline → Option (String × Nat)
  | .map ((_, .text kind) :: fields) => some (kind, fields.length)
  | _ => none

theorem values_of_shown (h : (node kind fields).shown = (node kind' fields').shown) :
    fields.map (·.2.shown) = fields'.map (·.2.shown) := by
  rw [node, node, shown_map, shown_map, map.injEq, List.map_cons, List.map_cons] at h
  have hvalues := congrArg (List.map Prod.snd) (List.cons.inj h).2
  rwa [List.map_map, List.map_map] at hvalues

theorem value_of_shown (h : (node kind [(key, one)]).shown = (node kind' [(key', other)]).shown) :
    one.shown = other.shown :=
  (List.cons.inj (values_of_shown h)).1

theorem text_of_shown
    (h : (node kind [(key, .text one)]).shown = (node kind' [(key', .text other)]).shown) :
    one = other :=
  text.inj (value_of_shown h)

theorem pair_of_shown
    (h : (node kind [(k, one), (l, two)]).shown = (node kind' [(k', one'), (l', two')]).shown) :
    one.shown = one'.shown ∧ two.shown = two'.shown := by
  have hvalues := values_of_shown h
  simp only [List.map_cons, List.cons.injEq] at hvalues
  exact ⟨hvalues.1, hvalues.2.1⟩

theorem operation_of_shown
    (h : (operation kind sign l r).shown = (operation kind' sign' l' r').shown) :
    sign = sign' ∧ l.shown = l'.shown ∧ r.shown = r'.shown := by
  have hvalues := values_of_shown h
  simp only [List.map_cons, List.cons.injEq] at hvalues
  obtain ⟨hsign, hl, hr, -⟩ := hvalues
  exact ⟨text.inj hsign, hl, hr⟩

end Outline

open Outline (values_of_shown value_of_shown text_of_shown pair_of_shown operation_of_shown)

-- ---------------------------------------------------------------------------
-- Expressions
-- ---------------------------------------------------------------------------

theorem Identifier.unlined_of_shown {name other : Identifier}
    (h : name.outline.shown = other.outline.shown) :
    name.mapLine (fun _ => none) = other.mapLine fun _ => none := by
  rw [mapLine, mapLine, text_of_shown h]

/-- Only a node of another kind has no fields. -/
def Expr.shape : Expr → String × Nat
  | .foreign _ kind => (kind, 0)
  | .math .. => ("MathOperation", 3)
  | .comparison .. => ("ComparisonOperation", 3)
  | e => (e.kindName, 1)

theorem Expr.shape_of_shown {e other : Expr} (h : e.outline.shown = other.outline.shown) :
    e.shape = other.shape := by
  have hshape (e : Expr) : e.outline.shown.shape? = some e.shape := by
    cases e <;> rfl
  have hsome := congrArg Outline.shape? h
  rw [hshape, hshape] at hsome
  exact Option.some.inj hsome

theorem Expr.unlined_of_shown {e other : Expr} (h : e.outline.shown = other.outline.shown) :
    e.mapLine (fun _ => none) = other.mapLine fun _ => none := by
  -- The shape refutes what pairs two constructors.
  induction e generalizing other with
  | identifier name =>
    cases other with
    | identifier name' => exact congrArg Expr.identifier (Identifier.unlined_of_shown h)
    | _ => exact absurd (shape_of_shown h) (by simp [shape, kindName])
  | number line value =>
    cases other with
    | number line' value' =>
      have hvalue := Outline.text.inj (value_of_shown h)
      rw [mapLine, mapLine, Binary64.inspect_inj hvalue]
    | _ => exact absurd (shape_of_shown h) (by simp [shape, kindName])
  | string line text =>
    cases other with
    | string line' text' =>
      rw [mapLine, mapLine, text_of_shown h]
    | _ => exact absurd (shape_of_shown h) (by simp [shape, kindName])
  | null line spelling =>
    cases other with
    | null line' spelling' =>
      rw [mapLine, mapLine, text_of_shown h]
    | _ => exact absurd (shape_of_shown h) (by simp [shape, kindName])
  | negate line operand ih =>
    cases other with
    | negate line' operand' =>
      rw [mapLine, mapLine, ih (value_of_shown h)]
    | _ => exact absurd (shape_of_shown h) (by simp [shape, kindName])
  | math line l sign r ihl ihr =>
    cases other with
    | math line' l' sign' r' =>
      obtain ⟨hsign, hl, hr⟩ := operation_of_shown h
      rw [mapLine, mapLine, hsign, ihl hl, ihr hr]
    | _ => exact absurd (shape_of_shown h) (by simp [shape, kindName])
  | comparison line l sign r ihl ihr =>
    cases other with
    | comparison line' l' sign' r' =>
      obtain ⟨hsign, hl, hr⟩ := operation_of_shown h
      rw [mapLine, mapLine, hsign, ihl hl, ihr hr]
    | _ => exact absurd (shape_of_shown h) (by simp [shape, kindName])
  | foreign line kind =>
    cases other with
    | foreign line' kind' =>
      have hkind : kind = kind' := (Prod.mk.inj (shape_of_shown h)).1
      rw [mapLine, mapLine, hkind]
    | _ => exact absurd (shape_of_shown h) (by simp [shape, kindName])

-- ---------------------------------------------------------------------------
-- Statements
-- ---------------------------------------------------------------------------

theorem Stmt.outlines_eq_map (body : List Stmt) : Stmt.outlines body = body.map Stmt.outline := by
  induction body with
  | nil => rfl
  | cons s body ih => rw [outlines, ih, List.map_cons]

theorem Comparison.unlined_of_shown {one other : Comparison}
    (h : one.toExpr.outline.shown = other.toExpr.outline.shown) :
    one.mapLine (fun _ => none) = other.mapLine fun _ => none := by
  obtain ⟨-, hl, hsign, hr⟩ := Expr.comparison.inj (Expr.unlined_of_shown h)
  rw [mapLine, mapLine, hl, hsign, hr]

theorem Assignment.unlined_of_shown {one other : Assignment}
    (h : one.outline.shown = other.outline.shown) :
    one.mapLine (fun _ => none) = other.mapLine fun _ => none := by
  obtain ⟨htarget, hvalue⟩ := pair_of_shown h
  rw [mapLine, mapLine, Identifier.unlined_of_shown htarget, Expr.unlined_of_shown hvalue]

def Stmt.shape : Stmt → String × Nat
  | .choice _ => ("IfStatement", 3)
  | .declaration _ => ("VarDeclaration", 2)
  | .assignment _ => ("AssignmentOperation", 2)
  | .expression value => value.shape
  | s => (s.kindName, 1)

theorem Stmt.shape_of_shown {s other : Stmt} (h : s.outline.shown = other.outline.shown) :
    s.shape = other.shape := by
  have hshape (s : Stmt) : s.outline.shown.shape? = some s.shape := by
    cases s with
    | block inner => cases inner; rfl
    | choice first => cases first; rfl
    | expression value => cases value <;> rfl
    | print | «return» | declaration | assignment => rfl
  have hsome := congrArg Outline.shape? h
  rw [hshape, hshape] at hsome
  exact Option.some.inj hsome

theorem Stmt.shown_ne_expression {s : Stmt} (hs : ∀ e, s ≠ .expression e) (e : Expr) :
    s.outline.shown ≠ e.outline.shown := by
  intro h
  have hshape : s.shape = e.shape := @shape_of_shown s (.expression e) h
  cases s with
  | expression value => exact hs value rfl
  | _ => cases e <;> simp [shape, kindName, Expr.shape, Expr.kindName] at hshape

theorem Stmt.unlined_of_shown_return {value other : Option Expr}
    (h : ((value.map Expr.outline).getD .absent).shown =
      ((other.map Expr.outline).getD .absent).shown) :
    value.map (Expr.mapLine fun _ => none) = other.map (Expr.mapLine fun _ => none) := by
  have hnode (e : Expr) : e.outline.shown ≠ Outline.absent.shown := by
    cases e <;> exact nofun
  cases value with
  | none =>
    cases other with
    | none => rfl
    | some e => exact absurd h.symm (hnode e)
  | some e =>
    cases other with
    | none => exact absurd h (hnode e)
    | some e' => exact congrArg some (Expr.unlined_of_shown h)

mutual
theorem Stmt.unlined_of_shown : ∀ (s other : Stmt), s.outline.shown = other.outline.shown →
    s.mapLine (fun _ => none) = other.mapLine fun _ => none
  | .block inner, other, h => by
    cases other with
    | block inner' => exact congrArg Stmt.block (Block.unlined_of_shown inner inner' h)
    | expression e => exact absurd h (Stmt.shown_ne_expression (by nofun) e)
    | _ => exact absurd (Stmt.shape_of_shown h) (by simp [Stmt.shape, Stmt.kindName])
  | .choice first, other, h => by
    cases other with
    | choice first' => exact congrArg Stmt.choice (Choice.unlined_of_shown first first' h)
    | expression e => exact absurd h (Stmt.shown_ne_expression (by nofun) e)
    | _ => exact absurd (Stmt.shape_of_shown h) (by simp [Stmt.shape, Stmt.kindName])
  | .print line value, other, h => by
    cases other with
    | print line' value' =>
      exact congrArg (Stmt.print none) (Expr.unlined_of_shown (value_of_shown h))
    | expression e => exact absurd h (Stmt.shown_ne_expression (by nofun) e)
    | _ => exact absurd (Stmt.shape_of_shown h) (by simp [Stmt.shape, Stmt.kindName])
  | .return line value, other, h => by
    cases other with
    | «return» line' value' =>
      exact congrArg (Stmt.return none) (Stmt.unlined_of_shown_return (value_of_shown h))
    | expression e => exact absurd h (Stmt.shown_ne_expression (by nofun) e)
    | _ => exact absurd (Stmt.shape_of_shown h) (by simp [Stmt.shape, Stmt.kindName])
  | .declaration declared, other, h => by
    cases other with
    | declaration declared' =>
      obtain ⟨hname, hinit⟩ := pair_of_shown h
      simp only [Stmt.mapLine, Declaration.mapLine, Identifier.unlined_of_shown hname,
        Assignment.unlined_of_shown hinit]
    | expression e => exact absurd h (Stmt.shown_ne_expression (by nofun) e)
    | _ => exact absurd (Stmt.shape_of_shown h) (by simp [Stmt.shape, Stmt.kindName])
  | .assignment assigned, other, h => by
    cases other with
    | assignment assigned' => exact congrArg Stmt.assignment (Assignment.unlined_of_shown h)
    | expression e => exact absurd h (Stmt.shown_ne_expression (by nofun) e)
    | _ => exact absurd (Stmt.shape_of_shown h) (by simp [Stmt.shape, Stmt.kindName])
  | .expression value, other, h => by
    cases other with
    | expression value' => exact congrArg Stmt.expression (Expr.unlined_of_shown h)
    | _ => exact absurd h.symm (Stmt.shown_ne_expression (by nofun) value)

theorem Block.unlined_of_shown : ∀ (b other : Block), b.outline.shown = other.outline.shown →
    b.mapLine (fun _ => none) = other.mapLine fun _ => none
  | .mk line body, .mk line' body', h => by
    have hbody := value_of_shown h
    rw [Outline.shown_list, Outline.shown_list] at hbody
    exact congrArg (Block.mk none)
      (Stmt.mapLines_of_shown body body' (Outline.list.inj hbody))

theorem Choice.unlined_of_shown : ∀ (c other : Choice), c.outline.shown = other.outline.shown →
    c.mapLine (fun _ => none) = other.mapLine fun _ => none
  | .mk line condition body otherwise, .mk line' condition' body' otherwise', h => by
    have hvalues := values_of_shown h
    simp only [List.map_cons, List.cons.injEq] at hvalues
    obtain ⟨hcondition, hbody, hotherwise, -⟩ := hvalues
    rw [Choice.mapLine, Choice.mapLine, Comparison.unlined_of_shown hcondition,
      Block.unlined_of_shown body body' hbody,
      Otherwise.unlined_of_shown otherwise otherwise' hotherwise]

theorem Otherwise.unlined_of_shown : ∀ (o other : Otherwise),
    o.outline.shown = other.outline.shown → o.mapLine (fun _ => none) = other.mapLine fun _ => none
  | .nothing, other, h => by
    cases other with
    | nothing => rfl
    | block chosen => cases chosen; exact nomatch h
    | choice chosen => cases chosen; exact nomatch h
  | .block chosen, other, h => by
    cases other with
    | nothing => cases chosen; exact nomatch h
    | block chosen' => exact congrArg Otherwise.block (Block.unlined_of_shown chosen chosen' h)
    | choice chosen' =>
      exact absurd (@Stmt.shape_of_shown (.block chosen) (.choice chosen') h)
        (by simp [Stmt.shape, Stmt.kindName])
  | .choice chosen, other, h => by
    cases other with
    | nothing => cases chosen; exact nomatch h
    | choice chosen' => exact congrArg Otherwise.choice (Choice.unlined_of_shown chosen chosen' h)
    | block chosen' =>
      exact absurd (@Stmt.shape_of_shown (.choice chosen) (.block chosen') h)
        (by simp [Stmt.shape, Stmt.kindName])

theorem Stmt.mapLines_of_shown : ∀ (body others : List Stmt),
    (Stmt.outlines body).map Outline.shown = (Stmt.outlines others).map Outline.shown →
    Stmt.mapLines (fun _ => none) body = Stmt.mapLines (fun _ => none) others
  | [], [], _ => rfl
  | s :: body, other :: others, h => by
    obtain ⟨hs, hbody⟩ := List.cons.inj h
    rw [Stmt.mapLines, Stmt.mapLines, Stmt.unlined_of_shown s other hs,
      Stmt.mapLines_of_shown body others hbody]
end

-- ---------------------------------------------------------------------------
-- Lines aside
-- ---------------------------------------------------------------------------

variable (f : Option Int → Option Int)

theorem Expr.outline_mapLine (e : Expr) : (e.mapLine f).outline = e.outline := by
  induction e with
  | identifier | number | string | null | foreign => rfl
  | negate line operand ih => rw [mapLine, outline, ih]; rfl
  | math line l sign r ihl ihr | comparison line l sign r ihl ihr =>
    rw [mapLine, outline, ihl, ihr]; rfl

theorem Assignment.outline_mapLine (assigned : Assignment) :
    (assigned.mapLine f).outline = assigned.outline := by
  rw [mapLine, outline, Expr.outline_mapLine]
  rfl

mutual
theorem Stmt.outline_mapLine : ∀ s : Stmt, (s.mapLine f).outline = s.outline
  | .block inner => Block.outline_mapLine inner
  | .choice first => Choice.outline_mapLine first
  | .print line value => by
    rw [Stmt.mapLine, Stmt.outline, value.outline_mapLine]; rfl
  | .return line none => rfl
  | .return line (some value) => by
    rw [Stmt.mapLine, Stmt.outline, Option.map_some, Option.map_some, value.outline_mapLine]; rfl
  | .declaration declared => by
    rw [Stmt.mapLine, Stmt.outline, Declaration.mapLine, Assignment.outline_mapLine]; rfl
  | .assignment assigned => Assignment.outline_mapLine f assigned
  | .expression value => value.outline_mapLine f

theorem Block.outline_mapLine : ∀ b : Block, (b.mapLine f).outline = b.outline
  | .mk line body => by
    rw [Block.mapLine, Block.outline, Stmt.outlines_mapLines body]; rfl

theorem Choice.outline_mapLine : ∀ c : Choice, (c.mapLine f).outline = c.outline
  | .mk line condition body otherwise => by
    have hcondition : (condition.mapLine f).toExpr.outline = condition.toExpr.outline :=
      condition.toExpr.outline_mapLine f
    rw [Choice.mapLine, Choice.outline, hcondition, Block.outline_mapLine body,
      Otherwise.outline_mapLine otherwise]
    rfl

theorem Otherwise.outline_mapLine : ∀ o : Otherwise, (o.mapLine f).outline = o.outline
  | .nothing => rfl
  | .block chosen => Block.outline_mapLine chosen
  | .choice chosen => Choice.outline_mapLine chosen

theorem Stmt.outlines_mapLines : ∀ body : List Stmt,
    Stmt.outlines (Stmt.mapLines f body) = Stmt.outlines body
  | [] => rfl
  | s :: body => by
    rw [Stmt.mapLines, Stmt.outlines, Stmt.outline_mapLine s, Stmt.outlines_mapLines body]; rfl
end

theorem Program.outline_unlined (program : Program) :
    program.unlined.outline = program.outline := by
  rw [unlined, mapLine, outline, Stmt.outlines_mapLines]
  rfl

theorem Program.unlined_of_shown {p q : Program} (h : p.outline.shown = q.outline.shown) :
    p.unlined = q.unlined := by
  have hbody := value_of_shown h
  rw [Outline.shown_list, Outline.shown_list] at hbody
  exact congrArg Program.mk (Stmt.mapLines_of_shown _ _ (Outline.list.inj hbody))

end Rech
