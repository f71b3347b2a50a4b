import Rech.Error
import Rech.Token.Basic

/-!
# Token streams

A stream is a position in a list of tokens that ends in an end-of-file token.
Looking past the last token sees the last one again, and taking a token there
still moves the offset. A stream can also be looked at in both directions,
where the last token stands before the first.
-/

namespace Rech

structure TokenStream where
  tokens : List Token
  ahead : List Token
  last : Token
  offset : Nat
deriving DecidableEq, Repr

namespace TokenStream

def ofTokens (tokens : List Token) : Except SyntaxError TokenStream :=
  match tokens.getLast? with
  | some last =>
    if last.kind = .endOfFile then .ok ⟨tokens, tokens, last, 0⟩
    else .error ⟨.streamWithoutEnd, none⟩
  | none => .error ⟨.streamWithoutEnd, none⟩

def peek (stream : TokenStream) (distance : Nat) : Token :=
  (stream.ahead[distance]?).getD stream.last

/-- The token at a distance, behind or ahead. Behind the first token come all
tokens once more, from the last one back, and after them none. -/
def look (stream : TokenStream) (distance : Int) : Option Token :=
  match (stream.offset : Int) + distance with
  | .ofNat index => some ((stream.tokens[index]?).getD stream.last)
  | .negSucc index => stream.tokens.reverse[index]?

def advance (stream : TokenStream) : TokenStream where
  tokens := stream.tokens
  ahead := stream.ahead.tail
  last := stream.last
  offset := stream.offset + 1

end TokenStream

end Rech
