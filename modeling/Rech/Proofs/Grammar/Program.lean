import Mathlib.Data.List.TakeWhile
import Rech.Proofs.Grammar.Lines
import Rech.Proofs.Parsing.Statement

/-!
# Programs are read as the grammar has them

A program is any number of statements. What is read from a list of tokens is
decided by those before the first end of file: they are the tokens of a program
if and only if one is read, and the program read is the one they spell.
-/

namespace Rech

def Program.Derives (anchor : Token → Option Int) (w : List Token) (program : Program) : Prop :=
  Stmt.DerivesAll anchor w program.body

/-- The tokens of a program, whatever lines its nodes have. -/
def Program.SpelledBy (w : List Token) (program : Program) : Prop :=
  Program.Derives (fun _ => none) w program

def Token.beforeEnd (tokens : List Token) : List Token :=
  tokens.takeWhile (·.kind ≠ .endOfFile)

def Token.EndsList (tokens : List Token) : Prop :=
  ∃ last, tokens.getLast? = some last ∧ last.kind = .endOfFile

-- ---------------------------------------------------------------------------
-- No phrase has an end of file
-- ---------------------------------------------------------------------------

def Token.NoEnd (w : List Token) : Prop := ∀ token ∈ w, token.kind ≠ .endOfFile

namespace Token

@[simp] theorem noEnd_nil : NoEnd [] := by simp [NoEnd]

@[simp] theorem noEnd_cons : NoEnd (token :: w) ↔ token.kind ≠ .endOfFile ∧ NoEnd w := by
  simp [NoEnd]

@[simp] theorem noEnd_append : NoEnd (v ++ w) ↔ NoEnd v ∧ NoEnd w := by
  simp only [NoEnd, List.mem_append]
  exact ⟨fun h => ⟨fun t ht => h t (.inl ht), fun t ht => h t (.inr ht)⟩,
    fun h t ht => ht.elim (h.1 t) (h.2 t)⟩

theorem beforeEnd_append (hw : NoEnd w) (hr : ∀ token ∈ rest.head?, token.kind = .endOfFile) :
    beforeEnd (w ++ rest) = w := by
  rw [beforeEnd, List.takeWhile_append_of_pos (by simpa [NoEnd] using hw)]
  cases rest with
  | nil => simp
  | cons token rest => simp [hr token rfl]

theorem noEnd_beforeEnd (tokens : List Token) : NoEnd (beforeEnd tokens) :=
  fun _ hm => by simpa using List.mem_takeWhile_imp hm

theorem EndsList.drop (h : EndsList tokens) {count : Nat} (hcount : count < tokens.length) :
    EndsList (tokens.drop count) := by
  obtain ⟨last, hlast, hk⟩ := h
  exact ⟨last, by rw [List.getLast?_drop, if_neg (by omega), hlast], hk⟩

theorem exists_append_of_endsList (h : EndsList tokens) :
    ∃ token rest, tokens = beforeEnd tokens ++ token :: rest ∧ token.kind = .endOfFile := by
  obtain ⟨last, hlast, hk⟩ := h
  have hsplit := List.takeWhile_append_dropWhile (p := (·.kind ≠ .endOfFile)) (l := tokens)
  have hhead := List.head?_dropWhile_not (·.kind ≠ .endOfFile) tokens
  cases hd : tokens.dropWhile (·.kind ≠ .endOfFile) with
  | nil =>
    have hall := List.dropWhile_eq_nil_iff.1 hd last (List.mem_of_getLast? hlast)
    exact absurd hk (by simpa using hall)
  | cons token rest =>
    rw [hd] at hsplit hhead
    exact ⟨token, rest, hsplit.symm, by simpa using hhead⟩

end Token

theorem Expr.Derives.noEnd (h : Expr.Derives anchor Level.all w e) : Token.NoEnd w := by
  intro token hm hk
  simpa [hk, Token.Kind.inExpression] using h.inExpression token hm

theorem Assignment.Derives.noEnd (h : Assignment.Derives anchor w a) : Token.NoEnd w := by
  cases h with
  | mk target equals value => simp [target, equals, value.noEnd]

mutual
theorem Stmt.Derives.noEnd : Stmt.Derives anchor w s → Token.NoEnd w
  | .block inner => inner.noEnd
  | .choice first => first.noEnd
  | .print keyword value ended | .returnValue keyword value ended => by
    simp [keyword, value.noEnd, ended]
  | .returnNothing keyword ended => by simp [keyword, ended]
  | .declaration keyword init ended => by simp [keyword, init.noEnd, ended]
  | .assignment assigned ended => by simp [assigned.noEnd, ended]
  | .expression value ended => by simp [value.noEnd, ended]

theorem Block.Derives.noEnd : Block.Derives anchor w b → Token.NoEnd w
  | .mk left body right => by simp [left, body.noEnd, right]

theorem Choice.Derives.noEnd : Choice.Derives anchor w c → Token.NoEnd w
  | .mk keyword left compared right body otherwise => by
    simp [keyword, left, compared.noEnd, right, body.noEnd, otherwise.noEnd]

theorem Otherwise.Derives.noEnd : Otherwise.Derives anchor w o → Token.NoEnd w
  | .nothing => by simp
  | .block keyword chosen => by simp [keyword, chosen.noEnd]
  | .choice keyword chosen => by simp [keyword, chosen.noEnd]

theorem Stmt.DerivesAll.noEnd : Stmt.DerivesAll anchor w body → Token.NoEnd w
  | .nil => by simp
  | .cons first others => by simp [first.noEnd, others.noEnd]
end

-- ---------------------------------------------------------------------------
-- Reading a list of tokens
-- ---------------------------------------------------------------------------

theorem TokenStream.ofTokens_of_getLast? {list : List Token} {last : Token}
    (hlast : list.getLast? = some last) (hk : last.kind = .endOfFile) :
    ofTokens list = .ok ⟨list, list, last, 0⟩ := by
  simp [ofTokens, hlast, hk]

theorem TokenStream.exists_ofTokens {list : List Token} (h : Token.EndsList list) :
    ∃ stream, TokenStream.ofTokens list = .ok stream ∧ stream.ahead = list ∧ stream.Ended := by
  obtain ⟨last, hlast, hk⟩ := h
  exact ⟨_, ofTokens_of_getLast? hlast hk, rfl, hk⟩

theorem TokenStream.endsList_of_ofTokens {list : List Token} (h : ofTokens list = .ok stream) :
    Token.EndsList list := by
  unfold ofTokens at h
  split at h
  next last hlast =>
    split at h
    next hkind => exact ⟨last, hlast, hkind⟩
    next => cases h
  next => cases h

theorem TokenStream.Passes.beforeEnd_eq {stream after : TokenStream} (h : stream.Passes w after)
    (hw : Token.NoEnd w) (hend : (after.peek 0).kind = .endOfFile) :
    Token.beforeEnd stream.ahead = w := by
  rw [h.ahead]
  refine Token.beforeEnd_append hw fun token htoken => ?_
  have hpeek : after.peek 0 = token := by
    simp_all [TokenStream.peek, List.head?_eq_getElem?]
  rwa [← hpeek]

theorem Parsing.ofTokens_eq {parsing : Parsing α}
    (h : TokenStream.ofTokens tokens = .ok stream) :
    parsing.ofTokens tokens = (parsing.runOn stream).1 := by
  rw [ofTokens, h]
  rfl

theorem Parsing.endsList_of_ofTokens {parsing : Parsing α}
    (h : parsing.ofTokens tokens = .ok value) : Token.EndsList tokens := by
  cases hstream : TokenStream.ofTokens tokens with
  | error error =>
    rw [ofTokens, hstream] at h
    cases h
  | ok stream => exact TokenStream.endsList_of_ofTokens hstream

/-- A program is read up to an end of file. -/
theorem Parsing.sound_program {stream after : TokenStream} {read : Program} (hs : stream.Ended)
    (h : program.runOn stream = (.ok read, after)) :
    ∃ w, stream.Passes w after ∧ Program.Derives Token.line w read ∧
      (after.peek 0).kind = .endOfFile := by
  simp only [program, runOn_bind_ok, runOn_remaining_ok, runOn_pure_ok] at h
  obtain ⟨_, _, ⟨rfl, rfl⟩, body, rear, hbody, rfl, rfl⟩ := h
  obtain ⟨w, passed, dw⟩ := sound_items sound_statement _ hs hbody
  have hend := ends_items sound_statement _ hs (Nat.le_refl _) hbody
  exact ⟨w, passed, dw, by simpa using hend⟩

theorem Program.ofTokens_eq_ok_iff {tokens : List Token} {program : Program}
    (h : Token.EndsList tokens) :
    Program.ofTokens tokens = .ok program ↔
      Program.Derives Token.line (Token.beforeEnd tokens) program := by
  obtain ⟨stream, hstream, hahead, hended⟩ := TokenStream.exists_ofTokens h
  rw [Program.ofTokens, Parsing.ofTokens_eq hstream]
  constructor
  · intro hrun
    obtain ⟨w, passed, dw, hend⟩ := Parsing.sound_program hended (Prod.ext hrun rfl)
    rwa [← hahead, passed.beforeEnd_eq (Stmt.DerivesAll.noEnd dw) hend]
  · intro hd
    obtain ⟨token, rest, htokens, hk⟩ := Token.exists_append_of_endsList h
    let after : TokenStream :=
      ⟨stream.tokens, token :: rest, stream.last, stream.offset + (Token.beforeEnd tokens).length⟩
    have passed : stream.Passes (Token.beforeEnd tokens) after :=
      ⟨rfl, hahead.trans htokens, rfl, rfl⟩
    have hnever : ∀ kind, (fun _ => false) kind = true → kind = Token.Kind.rightBrace := by simp
    have hbody := Parsing.complete_items hnever
      Parsing.complete_statement hd (Nat.le_refl _) passed (.inl hk)
      (passed.length_ahead ▸ Nat.le_add_right ..)
    simp only [Parsing.program, Parsing.runOn_bind, Parsing.runOn_remaining, hbody,
      Parsing.runOn_pure]

-- ---------------------------------------------------------------------------
-- Lines aside
-- ---------------------------------------------------------------------------

theorem Program.Derives.spelledBy (h : Program.Derives anchor w program) :
    Program.SpelledBy w program.unlined := by
  have hm : Token.Moves anchor (fun _ => none) (fun _ => none) id := ⟨by simp, by simp, by simp⟩
  have hd := Stmt.DerivesAll.mapLine hm h
  rwa [List.map_id] at hd

theorem Program.SpelledBy.exists_derives (anchor : Token → Option Int)
    (h : Program.SpelledBy w program) :
    ∃ lined, Program.Derives anchor w lined ∧ lined.unlined = program := by
  obtain ⟨body, hd, hbody⟩ : ∃ body, Stmt.DerivesAll anchor w body ∧
      Stmt.mapLines (fun _ => none) body = program.body :=
    Stmt.DerivesAll.exists_mapLine (fun _ => rfl) h
  exact ⟨⟨body⟩, hd, by rw [unlined, Program.mapLine, hbody]⟩

theorem Program.unlined_ofTokens_eq_ok_iff {tokens : List Token} {program : Program}
    (h : Token.EndsList tokens) :
    (Program.ofTokens tokens).map Program.unlined = .ok program ↔
      Program.SpelledBy (Token.beforeEnd tokens) program := by
  constructor
  · intro hread
    cases hp : Program.ofTokens tokens with
    | error error => simp [hp, Except.map] at hread
    | ok lined =>
      obtain rfl : lined.unlined = program := by simpa [hp, Except.map] using hread
      exact ((Program.ofTokens_eq_ok_iff h).1 hp).spelledBy
  · intro hs
    obtain ⟨lined, hd, rfl⟩ := hs.exists_derives Token.line
    rw [(Program.ofTokens_eq_ok_iff h).2 hd]
    rfl

/-- Reading accepts exactly the grammar: lines aside, the program read is the
one that the tokens before the first end of file spell. They spell no second
one, and reading fails where they spell none. -/
theorem Program.ofTokens_exact (tokens : List Token) (h : Token.EndsList tokens) :
    (∀ program, (Program.ofTokens tokens).map Program.unlined = .ok program ↔
      Program.SpelledBy (Token.beforeEnd tokens) program) ∧
    (∀ one other, Program.SpelledBy (Token.beforeEnd tokens) one →
      Program.SpelledBy (Token.beforeEnd tokens) other → one = other) ∧
    ((∃ error, Program.ofTokens tokens = .error error) ↔
      ¬∃ program, Program.SpelledBy (Token.beforeEnd tokens) program) := by
  have exact_iff {program : Program} : _ ↔ Program.SpelledBy _ program :=
    Program.unlined_ofTokens_eq_ok_iff h
  refine ⟨fun _ => exact_iff, ?_, ?_⟩
  · intro one other hone hother
    have := (exact_iff.2 hone).symm.trans (exact_iff.2 hother)
    exact Except.ok.inj this
  · constructor
    · rintro ⟨error, herror⟩ ⟨program, hs⟩
      simp [herror, Except.map] at exact_iff
      exact exact_iff hs
    · intro hnone
      cases hp : Program.ofTokens tokens with
      | error error => exact ⟨error, rfl⟩
      | ok lined => exact absurd ⟨_, exact_iff.1 (by rw [hp]; rfl)⟩ hnone

/-- `если (a - b - c < d) { } иначе { a = -d; }`, with a token behind
the first end of file. -/
def Program.sampleTokens : List Token :=
  [(.ifWord, "если"), (.leftParen, "("), (.identifier, "a"), (.math, "-"), (.identifier, "b"),
    (.math, "-"), (.identifier, "c"), (.comparison, "<"), (.identifier, "d"), (.rightParen, ")"),
    (.leftBrace, "\x7b"), (.rightBrace, "\x7d"), (.elseWord, "иначе"), (.leftBrace, "\x7b"),
    (.identifier, "a"), (.assign, "="), (.math, "-"), (.identifier, "d"), (.semicolon, ";"),
    (.rightBrace, "\x7d"), (.endOfFile, ""), (.bang, "!"), (.endOfFile, "")].map
    fun entry => ⟨entry.1, entry.2, .start⟩

theorem Program.ofTokens_exact_sample : Token.EndsList Program.sampleTokens ∧
    Program.SpelledBy (Token.beforeEnd Program.sampleTokens)
      ⟨[.choice (.mk none
        ⟨none, .math none (.math none (.identifier ⟨none, "a"⟩) "-" (.identifier ⟨none, "b"⟩)) "-"
          (.identifier ⟨none, "c"⟩), "<", .identifier ⟨none, "d"⟩⟩
        (.mk none [])
        (.block (.mk none [.assignment ⟨none, ⟨none, "a"⟩,
          .negate none (.identifier ⟨none, "d"⟩)⟩])))]⟩ := by
  have h : Token.EndsList Program.sampleTokens := ⟨_, rfl, rfl⟩
  exact ⟨h, ((Program.ofTokens_exact _ h).1 _).1 rfl⟩

end Rech
