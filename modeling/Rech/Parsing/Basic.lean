import Rech.Token.Stream

/-!
# Reading from a token stream

A reader of trees takes tokens from a stream and answers with a tree or an
error. An error leaves the stream where it stopped.
-/

namespace Rech

abbrev Parsing := ExceptT SyntaxError (StateM TokenStream)

namespace Parsing

def runOn (parsing : Parsing α) (stream : TokenStream) : Except SyntaxError α × TokenStream :=
  StateT.run (ExceptT.run parsing) stream

theorem runOn_bind (parsing : Parsing α) (f : α → Parsing β) (stream : TokenStream) :
    (parsing >>= f).runOn stream =
      match parsing.runOn stream with
      | (.ok a, after) => (f a).runOn after
      | (.error error, after) => (.error error, after) := by
  unfold runOn ExceptT.run StateT.run
  simp only [bind, ExceptT.bind, ExceptT.mk, StateT.bind, ExceptT.bindCont]
  cases parsing stream with
  | mk outcome after => cases outcome <;> rfl

@[simp] theorem runOn_pure (a : α) (stream : TokenStream) :
    (pure a : Parsing α).runOn stream = (.ok a, stream) := rfl

def peek (distance : Nat) : Parsing Token := do
  return (← get).peek distance

@[simp] theorem runOn_peek (distance : Nat) (stream : TokenStream) :
    (peek distance).runOn stream = (.ok (stream.peek distance), stream) := rfl

def take : Parsing Token := do
  let token ← peek 0
  modify TokenStream.advance
  return token

@[simp] theorem runOn_take (stream : TokenStream) :
    take.runOn stream = (.ok (stream.peek 0), stream.advance) := rfl

def fail (cause : SyntaxError.Cause) : Parsing α := do
  throw ⟨cause, (← peek 0).place⟩

@[simp] theorem runOn_fail (cause : SyntaxError.Cause) (stream : TokenStream) :
    (fail cause : Parsing α).runOn stream =
      (.error ⟨cause, (stream.peek 0).place⟩, stream) := rfl

def expect (kind : Token.Kind) (cause : SyntaxError.Cause) : Parsing Unit := do
  if (← peek 0).kind = kind then return () else fail cause

def eat (kind : Token.Kind) (cause : SyntaxError.Cause) : Parsing Token := do
  if (← peek 0).kind = kind then take else fail cause

def atEnd : Parsing Bool := do
  return (← peek 0).kind = .endOfFile

def semicolon : Parsing Unit := do
  let _ ← eat .semicolon .missingSemicolon

/-- The number of tokens left, which bounds how deep and how long what they
spell can be. -/
def remaining : Parsing Nat := do
  return (← get).ahead.length

/-- Items up to the end or up to a token that closes them. -/
def items (closing : Token.Kind → Bool) (item : Parsing α) : Nat → Parsing (List α)
  | 0 => return []
  | bound + 1 => do
    let kind := (← peek 0).kind
    if kind = .endOfFile || closing kind then return []
    else
      let first ← item
      let others ← items closing item bound
      return first :: others

end Parsing

end Rech
