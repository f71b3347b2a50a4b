import Mathlib.Data.List.Forall2
import Rech.Proofs.Grammar.Program

/-!
# Readers do not look at places

Tokens that stand elsewhere are read alike. On two streams of the same kinds and
texts a reader goes in lockstep: it answers on both or fails on both for the same
cause, and where the lines of the tokens are mapped, so is the line of each node and
of the error. Columns are in no tree and may be any.
-/

namespace Rech

variable {f : Int → Int}

structure Token.Moved (f : Int → Int) (one other : Token) : Prop where
  kind : one.kind = other.kind
  text : one.text = other.text
  line : f one.place.line = other.place.line

structure TokenStream.Moved (f : Int → Int) (one other : TokenStream) : Prop where
  ahead : List.Forall₂ (Token.Moved f) one.ahead other.ahead
  last : Token.Moved f one.last other.last

/-- An error for the same cause, with its line mapped if it has one. -/
structure SyntaxError.Moved (f : Int → Int) (one other : SyntaxError) : Prop where
  cause : one.cause = other.cause
  line : (one.place.map Place.line).map f = other.place.map Place.line

namespace TokenStream.Moved

variable {one other : TokenStream}

theorem getD {v w : List Token} (h : List.Forall₂ (Token.Moved f) v w) {last last' : Token}
    (hlast : Token.Moved f last last') (distance : Nat) :
    Token.Moved f (v[distance]?.getD last) (w[distance]?.getD last') := by
  induction h generalizing distance with
  | nil => exact hlast
  | cons first _ ih =>
    cases distance with
    | zero => exact first
    | succ distance => exact ih distance

theorem peek (h : one.Moved f other) (distance : Nat) :
    Token.Moved f (one.peek distance) (other.peek distance) :=
  getD h.ahead h.last distance

theorem advance (h : one.Moved f other) : one.advance.Moved f other.advance where
  ahead := by
    rw [ahead_advance, ahead_advance, ← List.drop_one, ← List.drop_one]
    exact List.forall₂_drop 1 h.ahead
  last := h.last

end TokenStream.Moved

theorem Stmt.mapLines_eq_map (g : Option Int → Option Int) (body : List Stmt) :
    Stmt.mapLines g body = body.map (Stmt.mapLine g) := by
  induction body with
  | nil => rfl
  | cons s rest ih => rw [Stmt.mapLines, ih, List.map_cons]

theorem Expr.comparison?_mapLine (g : Option Int → Option Int) (e : Expr) :
    (e.mapLine g).comparison? = e.comparison?.map (Comparison.mapLine g) := by
  cases e <;> rfl

namespace Parsing

variable {α β γ δ : Type} {R : α → β → Prop} {S : γ → δ → Prop}

inductive Outcome (f : Int → Int) (R : α → β → Prop) :
    Except SyntaxError α × TokenStream → Except SyntaxError β × TokenStream → Prop
  | ok (values : R a b) (after : one.Moved f other) : Outcome f R (.ok a, one) (.ok b, other)
  | error {failure failure' : SyntaxError} (errors : failure.Moved f failure') :
      Outcome f R (.error failure, one) (.error failure', other)

/-- Two readers that answer with related values or fail alike. -/
def Lockstep (f : Int → Int) (R : α → β → Prop) (P : Parsing α) (Q : Parsing β) : Prop :=
  ∀ ⦃one other : TokenStream⦄, one.Moved f other → Outcome f R (P.runOn one) (Q.runOn other)

def Makes (g : α → β) (a : α) (b : β) : Prop := g a = b

abbrev MapsLines (mapLine : (Option Int → Option Int) → α → α) (f : Int → Int)
    (P : Parsing α) : Prop :=
  Lockstep f (Makes (mapLine (Option.map f))) P P

-- ---------------------------------------------------------------------------
-- Single steps
-- ---------------------------------------------------------------------------

namespace Lockstep

theorem bind {P : Parsing α} {Q : Parsing β} {F : α → Parsing γ} {G : β → Parsing δ}
    (h : Lockstep f R P Q) (hf : ∀ a b, R a b → Lockstep f S (F a) (G b)) :
    Lockstep f S (P >>= F) (Q >>= G) := by
  intro one other hs
  have hrun := h hs
  rw [runOn_bind, runOn_bind]
  generalize P.runOn one = result at hrun ⊢
  generalize Q.runOn other = result' at hrun ⊢
  cases hrun with
  | ok values after => exact hf _ _ values after
  | error errors => exact .error errors

protected theorem pure (values : R a b) : Lockstep f R (pure a) (pure b) :=
  fun _ _ hs => .ok values hs

end Lockstep

theorem lockstep_peek (distance : Nat) :
    Lockstep f (Token.Moved f) (peek distance) (peek distance) :=
  fun _ _ hs => .ok (hs.peek distance) hs

theorem lockstep_take : Lockstep f (Token.Moved f) take take :=
  fun _ _ hs => .ok (hs.peek 0) hs.advance

theorem lockstep_remaining : Lockstep f Eq remaining remaining :=
  fun _ _ hs => .ok hs.ahead.length_eq hs

theorem lockstep_fail (cause : SyntaxError.Cause) :
    Lockstep f R (fail cause : Parsing α) (fail cause : Parsing β) :=
  fun _ _ hs => .error ⟨rfl, congrArg some (hs.peek 0).line⟩

theorem lockstep_throw (cause : SyntaxError.Cause) (hline : f place.line = place'.line) :
    Lockstep f R (throw ⟨cause, some place⟩ : Parsing α) (throw ⟨cause, some place'⟩ : Parsing β) :=
  fun _ _ _ => .error ⟨rfl, congrArg some hline⟩

theorem lockstep_unexpected : Lockstep f R (unexpected : Parsing α) (unexpected : Parsing β) := by
  refine (lockstep_peek 0).bind fun token token' h => ?_
  rw [h.kind, h.text]
  exact lockstep_fail _

theorem lockstep_expect (kind : Token.Kind) (cause : SyntaxError.Cause) :
    Lockstep f Eq (expect kind cause) (expect kind cause) := by
  refine (lockstep_peek 0).bind fun token token' h => ?_
  rw [h.kind]
  split
  next => exact .pure rfl
  next => exact lockstep_fail cause

theorem lockstep_eat (kind : Token.Kind) (cause : SyntaxError.Cause) :
    Lockstep f (Token.Moved f) (eat kind cause) (eat kind cause) := by
  refine (lockstep_peek 0).bind fun token token' h => ?_
  rw [h.kind]
  split
  next => exact lockstep_take
  next => exact lockstep_fail cause

theorem lockstep_semicolon : Lockstep f Eq semicolon semicolon :=
  (lockstep_eat _ _).bind fun _ _ _ => .pure rfl

theorem lockstep_items {g : α → α} (closing : Token.Kind → Bool) {item : Parsing α}
    (h : Lockstep f (Makes g) item item) (bound : Nat) :
    Lockstep f (Makes (List.map g)) (items closing item bound) (items closing item bound) := by
  induction bound with
  | zero => exact .pure rfl
  | succ bound ih =>
    refine (lockstep_peek 0).bind fun token token' htoken => ?_
    dsimp only
    rw [htoken.kind]
    split
    next => exact .pure rfl
    next =>
      refine h.bind ?_
      rintro first _ rfl
      refine ih.bind ?_
      rintro others _ rfl
      exact .pure rfl

-- ---------------------------------------------------------------------------
-- Expressions
-- ---------------------------------------------------------------------------

theorem lockstep_chain {tier : Tier} {level : Level} (hm : tier.Matches level)
    {operand : Parsing Expr} (h : MapsLines Expr.mapLine f operand) (bound : Nat) (l : Expr) :
    Lockstep f (Makes (Expr.mapLine (Option.map f))) (chain tier operand bound l)
      (chain tier operand bound (l.mapLine (Option.map f))) := by
  induction bound generalizing l with
  | zero => exact .pure rfl
  | succ bound ih =>
    refine (lockstep_peek 0).bind fun token token' htoken => ?_
    have hhas : tier.has token' = tier.has token := by
      rw [Tier.has, Tier.has, htoken.kind, htoken.text]
    rw [hhas]
    split
    next =>
      refine lockstep_take.bind fun _ _ _ => h.bind ?_
      rintro r _ rfl
      have hnode : (tier.node token.place.line l token.text r).mapLine (Option.map f) =
          tier.node token'.place.line (l.mapLine (Option.map f)) token'.text
            (r.mapLine (Option.map f)) := by
        rw [hm.node, level.mapLine_node, htoken.text, Option.map_some, htoken.line]
      rw [← hnode]
      exact ih _
    next => exact .pure rfl

theorem lockstep_tier {tier : Tier} {level : Level} (hm : tier.Matches level)
    {operand : Parsing Expr} (h : MapsLines Expr.mapLine f operand) :
    MapsLines Expr.mapLine f (Parsing.tier tier operand) := by
  refine h.bind ?_
  rintro first _ rfl
  refine lockstep_remaining.bind ?_
  rintro bound _ rfl
  exact lockstep_chain hm h bound first

theorem lockstep_tiers {operand : Parsing Expr} (h : MapsLines Expr.mapLine f operand) :
    MapsLines Expr.mapLine f (tiers operand) :=
  lockstep_tier Tier.matches_comparison
    (lockstep_tier Tier.matches_additive (lockstep_tier Tier.matches_multiplicative h))

theorem lockstep_parenthesized {inner : Parsing Expr} (h : MapsLines Expr.mapLine f inner) :
    MapsLines Expr.mapLine f (parenthesized inner) := by
  refine lockstep_take.bind fun _ _ _ => h.bind ?_
  rintro e _ rfl
  exact (lockstep_eat _ _).bind fun _ _ _ => .pure rfl

theorem lockstep_identifier : MapsLines Identifier.mapLine f identifier := by
  refine lockstep_take.bind fun token token' h => .pure ?_
  rw [Makes, Identifier.mapLine, h.text, Option.map_some, h.line]

theorem lockstep_operandWithin (bound : Nat) : MapsLines Expr.mapLine f (operandWithin bound) := by
  induction bound with
  | zero => exact lockstep_unexpected
  | succ bound ih =>
    refine (lockstep_peek 0).bind ?_
    rintro ⟨kind, text, place⟩ ⟨_, _, place'⟩ ⟨rfl, rfl, hmoved⟩
    have hline : Option.map f (some place.line) = some place'.line := congrArg some hmoved
    cases kind with
    | math =>
      dsimp only
      split
      next =>
        refine lockstep_take.bind fun _ _ _ => ih.bind ?_
        rintro e _ rfl
        exact .pure (congrArg (Expr.negate · _) hline)
      next => exact lockstep_unexpected
    | number =>
      exact lockstep_take.bind fun _ _ _ => .pure (congrArg (Expr.number · _) hline)
    | string =>
      exact lockstep_take.bind fun _ _ _ => .pure (congrArg (Expr.string · _) hline)
    | nullWord =>
      exact lockstep_take.bind fun _ _ _ => .pure (congrArg (Expr.null · _) hline)
    | leftParen => exact lockstep_parenthesized (lockstep_tiers ih)
    | identifier =>
      refine lockstep_identifier.bind ?_
      rintro name _ rfl
      exact .pure rfl
    | _ => exact lockstep_unexpected

theorem lockstep_expression : MapsLines Expr.mapLine f expression := by
  refine lockstep_tiers ?_
  refine lockstep_remaining.bind ?_
  rintro bound _ rfl
  exact lockstep_operandWithin bound

-- ---------------------------------------------------------------------------
-- Statements
-- ---------------------------------------------------------------------------

theorem lockstep_block {statement : Parsing Stmt} (h : MapsLines Stmt.mapLine f statement) :
    MapsLines Block.mapLine f (block statement) := by
  refine lockstep_take.bind fun opening opening' hopening => ?_
  refine lockstep_remaining.bind ?_
  rintro bound _ rfl
  refine (lockstep_items _ h bound).bind ?_
  rintro body _ rfl
  refine (lockstep_eat _ _).bind fun _ _ _ => .pure ?_
  rw [Makes, Block.mapLine, Stmt.mapLines_eq_map, Option.map_some, hopening.line]

theorem lockstep_otherwise {choice : Parsing Choice} {block : Parsing Block}
    (hchoice : MapsLines Choice.mapLine f choice) (hblock : MapsLines Block.mapLine f block) :
    MapsLines Otherwise.mapLine f (otherwise choice block) := by
  refine (lockstep_peek 0).bind fun token token' htoken => ?_
  rw [htoken.kind]
  split
  next =>
    refine lockstep_take.bind fun _ _ _ => (lockstep_peek 0).bind ?_
    rintro ⟨kind, text, place⟩ ⟨_, _, place'⟩ ⟨rfl, rfl, -⟩
    cases kind with
    | ifWord =>
      refine hchoice.bind ?_
      rintro chosen _ rfl
      exact .pure rfl
    | leftBrace =>
      refine hblock.bind ?_
      rintro chosen _ rfl
      exact .pure rfl
    | _ => exact lockstep_fail _
  next => exact .pure rfl

theorem lockstep_choice {statement : Parsing Stmt} (h : MapsLines Stmt.mapLine f statement)
    (bound : Nat) : MapsLines Choice.mapLine f (choice statement bound) := by
  induction bound with
  | zero => exact lockstep_fail _
  | succ bound ih =>
    refine lockstep_take.bind fun word word' hword => ?_
    refine (lockstep_expect _ _).bind fun _ _ _ => ?_
    refine (lockstep_parenthesized lockstep_expression).bind ?_
    rintro condition _ rfl
    refine (lockstep_expect _ _).bind fun _ _ _ => ?_
    rw [Expr.comparison?_mapLine]
    cases condition.comparison? with
    | none => exact lockstep_throw _ hword.line
    | some comparison =>
      refine (lockstep_block h).bind ?_
      rintro body _ rfl
      refine (lockstep_otherwise ih (lockstep_block h)).bind ?_
      rintro other _ rfl
      refine .pure ?_
      rw [Makes, Choice.mapLine, Option.map_some, hword.line]

theorem lockstep_printStatement : MapsLines Stmt.mapLine f printStatement := by
  refine lockstep_take.bind fun word word' hword => lockstep_expression.bind ?_
  rintro e _ rfl
  refine lockstep_semicolon.bind fun _ _ _ => .pure ?_
  rw [Makes, Stmt.mapLine, Option.map_some, hword.line]

theorem lockstep_expression? :
    Lockstep f (Makes (Option.map (Expr.mapLine (Option.map f)))) expression? expression? := by
  refine (lockstep_peek 0).bind fun token token' htoken => ?_
  rw [htoken.kind]
  split
  next => exact .pure rfl
  next =>
    refine lockstep_expression.bind ?_
    rintro e _ rfl
    exact .pure rfl

theorem lockstep_returnStatement : MapsLines Stmt.mapLine f returnStatement := by
  refine lockstep_take.bind fun word word' hword => lockstep_expression?.bind ?_
  rintro value _ rfl
  refine lockstep_semicolon.bind fun _ _ _ => .pure ?_
  rw [Makes, Stmt.mapLine, Option.map_some, hword.line]

theorem lockstep_assignment : MapsLines Assignment.mapLine f assignment := by
  refine (lockstep_expect _ _).bind fun _ _ _ => lockstep_identifier.bind ?_
  rintro target _ rfl
  refine lockstep_take.bind fun _ _ _ => lockstep_expression.bind ?_
  rintro value _ rfl
  exact .pure rfl

theorem lockstep_declaration : MapsLines Declaration.mapLine f declaration := by
  refine lockstep_take.bind fun word word' hword => ?_
  refine (lockstep_peek 0).bind fun name name' hname => ?_
  refine (lockstep_peek 1).bind fun sign sign' hsign => ?_
  rw [hname.kind, hsign.kind]
  split
  next =>
    refine lockstep_assignment.bind ?_
    rintro init _ rfl
    refine lockstep_semicolon.bind fun _ _ _ => .pure ?_
    rw [Makes, Declaration.mapLine, Option.map_some, hword.line]
    rfl
  next => exact lockstep_fail _

theorem lockstep_simpleStatement : MapsLines Stmt.mapLine f simpleStatement := by
  refine Lockstep.bind (R := Makes (Stmt.mapLine (Option.map f))) ?_ ?_
  · refine (lockstep_peek 1).bind fun token token' htoken => ?_
    rw [htoken.kind]
    split
    next =>
      refine lockstep_assignment.bind ?_
      rintro assigned _ rfl
      exact .pure rfl
    next =>
      refine lockstep_expression.bind ?_
      rintro value _ rfl
      exact .pure rfl
  · rintro statement _ rfl
    exact lockstep_semicolon.bind fun _ _ _ => .pure rfl

theorem lockstep_statementWithin (bound : Nat) :
    MapsLines Stmt.mapLine f (statementWithin bound) := by
  induction bound with
  | zero => exact lockstep_unexpected
  | succ bound ih =>
    refine (lockstep_peek 0).bind ?_
    rintro ⟨kind, text, place⟩ ⟨_, _, place'⟩ ⟨rfl, rfl, -⟩
    cases kind with
    | leftBrace =>
      refine (lockstep_block ih).bind ?_
      rintro inner _ rfl
      exact .pure rfl
    | ifWord =>
      refine (lockstep_choice ih _).bind ?_
      rintro first _ rfl
      exact .pure rfl
    | printWord => exact lockstep_printStatement
    | returnWord => exact lockstep_returnStatement
    | letWord =>
      refine lockstep_declaration.bind ?_
      rintro declared _ rfl
      exact .pure rfl
    | _ => exact lockstep_simpleStatement

theorem lockstep_statement : MapsLines Stmt.mapLine f statement := by
  refine lockstep_remaining.bind ?_
  rintro bound _ rfl
  exact lockstep_statementWithin bound

theorem lockstep_program : MapsLines Program.mapLine f program := by
  refine lockstep_remaining.bind ?_
  rintro bound _ rfl
  refine (lockstep_items _ lockstep_statement bound).bind ?_
  rintro body _ rfl
  refine .pure ?_
  rw [Makes, Program.mapLine, Stmt.mapLines_eq_map]

end Parsing

-- ---------------------------------------------------------------------------
-- Lists of tokens
-- ---------------------------------------------------------------------------

theorem Token.getLast?_moved {v w : List Token} (h : List.Forall₂ (Token.Moved f) v w) :
    Option.Rel (Token.Moved f) v.getLast? w.getLast? := by
  rw [← List.head?_reverse, ← List.head?_reverse]
  have hreverse := List.forall₂_reverse_iff.2 h
  generalize v.reverse = v at hreverse ⊢
  generalize w.reverse = w at hreverse ⊢
  cases hreverse with
  | nil => exact .none
  | cons first _ => exact .some first

theorem TokenStream.ofTokens_moved {v w : List Token} (h : List.Forall₂ (Token.Moved f) v w) :
    (∃ one other, ofTokens v = .ok one ∧ ofTokens w = .ok other ∧ one.Moved f other) ∨
      ofTokens v = .error ⟨.streamWithoutEnd, none⟩ ∧
        ofTokens w = .error ⟨.streamWithoutEnd, none⟩ := by
  have hlast := Token.getLast?_moved h
  unfold ofTokens
  generalize v.getLast? = last at hlast ⊢
  generalize w.getLast? = last' at hlast ⊢
  cases hlast with
  | none => exact .inr ⟨rfl, rfl⟩
  | some hlast =>
    dsimp only
    rw [hlast.kind]
    split
    next => exact .inl ⟨_, _, rfl, rfl, h, hlast⟩
    next => exact .inr ⟨rfl, rfl⟩

/-- Whether a program is read, and which one, is not a matter of where its tokens
stand: the lines of the nodes, or that of the error, go with the lines of the tokens. -/
theorem Program.ofTokens_moved {tokens others : List Token}
    (h : List.Forall₂ (Token.Moved f) tokens others) :
    (∀ program, Program.ofTokens tokens = .ok program →
      Program.ofTokens others = .ok (program.mapLine (Option.map f))) ∧
    ∀ error, Program.ofTokens tokens = .error error →
      ∃ moved, Program.ofTokens others = .error moved ∧ error.Moved f moved := by
  rcases TokenStream.ofTokens_moved h with
    ⟨one, other, hone, hother, hs⟩ | ⟨hone, hother⟩
  · rw [Program.ofTokens, Program.ofTokens, Parsing.ofTokens_eq hone, Parsing.ofTokens_eq hother]
    have hrun := Parsing.lockstep_program hs
    generalize Parsing.program.runOn one = result at hrun ⊢
    generalize Parsing.program.runOn other = result' at hrun ⊢
    cases hrun with
    | ok values after =>
      refine ⟨fun program heq => ?_, fun error heq => by cases heq⟩
      obtain rfl := Except.ok.inj heq
      exact congrArg Except.ok values.symm
    | error errors =>
      refine ⟨fun program heq => (by cases heq), fun error heq => ?_⟩
      obtain rfl := Except.error.inj heq
      exact ⟨_, rfl, errors⟩
  · have hall (tokens : List Token)
        (hstream : TokenStream.ofTokens tokens = .error ⟨.streamWithoutEnd, none⟩) :
        Program.ofTokens tokens = .error ⟨.streamWithoutEnd, none⟩ := by
      rw [Program.ofTokens, Parsing.ofTokens, hstream]
      rfl
    rw [hall tokens hone, hall others hother]
    refine ⟨fun program heq => (by cases heq), fun error heq => ?_⟩
    obtain rfl := Except.error.inj heq
    exact ⟨_, rfl, rfl, rfl⟩

end Rech
