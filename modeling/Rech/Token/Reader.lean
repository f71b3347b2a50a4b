import Rech.Error
import Rech.Token.Lexeme

/-!
# Reading tokens

A reader is a position in a source text. Every step is an advance over a
number of characters, so offset and place follow from what was passed. The
single readers start wherever the reader stands and check nothing before;
`next` skips the gap first and then picks the reader that fits. A failing
reader stays where it stopped. `length_rest_next_lt` is the progress by which
`tokens` ends.
-/

namespace Rech

structure Reader where
  rest : List Char
  offset : Nat
  place : Place
deriving DecidableEq, Repr

namespace Reader

def ofText (text : List Char) : Reader := ⟨text, 0, .start⟩

/-- Past the end an advance still counts. -/
def advance (reader : Reader) : Reader where
  rest := reader.rest.tail
  offset := reader.offset + 1
  place := reader.place.after reader.rest.head?

def advanceBy : Nat → Reader → Reader
  | 0, reader => reader
  | count + 1, reader => advanceBy count reader.advance

@[simp] theorem rest_advanceBy (count : Nat) (reader : Reader) :
    (reader.advanceBy count).rest = reader.rest.drop count := by
  induction count generalizing reader with
  | zero => rfl
  | succ count ih => rw [advanceBy, ih, advance, List.drop_tail]

@[simp] theorem offset_advanceBy (count : Nat) (reader : Reader) :
    (reader.advanceBy count).offset = reader.offset + count := by
  induction count generalizing reader with
  | zero => rfl
  | succ count ih => simp only [advanceBy, ih, advance]; omega

def skipComment (reader : Reader) : Reader :=
  reader.advanceBy (Token.commentLength reader.rest)

def readRun (kind : Token.Kind) (inRun : Char → Bool) (reader : Reader) : Token × Reader :=
  let run := reader.rest.takeWhile inRun
  (⟨kind, String.ofList run, reader.place⟩, reader.advanceBy run.length)

def readNumber : Reader → Token × Reader := readRun .number Token.isNumeric

def readIdentifier : Reader → Token × Reader := readRun .identifier Token.isIdentifierChar

/-- The character in front counts as the opening quote, whatever it is. The
error of a string that its line does not close is at that quote. -/
def readString (reader : Reader) : Except SyntaxError Token × Reader :=
  let opened := reader.advance
  let run := opened.rest.takeWhile fun c => c != '"' && c != '\n'
  let stopped := opened.advanceBy run.length
  if stopped.rest.head? = some '"' then
    (.ok ⟨.string, String.ofList run, reader.place⟩, stopped.advance)
  else (.error ⟨.unclosedString, reader.place⟩, stopped)

def skipGap (reader : Reader) : Reader :=
  reader.advanceBy (Token.gap false reader.rest)

def readLexeme (reader : Reader) : Except SyntaxError Token × Reader :=
  match reader.rest with
  | [] => (.ok ⟨.endOfFile, "\x00", reader.place⟩, reader)
  | c :: _ =>
    match Token.key? reader.rest with
    | some (key, kind) =>
      (.ok ⟨kind, String.ofList key, reader.place⟩, reader.advanceBy key.length)
    | none =>
      if Token.isNumeric c then reader.readNumber.map .ok id
      else if c = '"' then reader.readString
      else reader.readIdentifier.map .ok id

def next (reader : Reader) : Except SyntaxError Token × Reader :=
  reader.skipGap.readLexeme

private theorem length_run_pos {inRun : Char → Bool} {c : Char} (rest : List Char)
    (h : inRun c = true) : 0 < ((c :: rest).takeWhile inRun).length := by
  simp [h]

theorem length_rest_readString_lt {reader : Reader} (h : reader.rest ≠ []) :
    reader.readString.2.rest.length < reader.rest.length := by
  have hpos := List.length_pos_iff.2 h
  unfold readString
  dsimp only
  split <;> simp [advance] <;> omega

theorem length_rest_readLexeme_lt {reader : Reader}
    (h : Token.beginsLexeme reader.rest = true) :
    reader.readLexeme.2.rest.length < reader.rest.length := by
  unfold readLexeme
  split
  next hr => simp [hr, Token.beginsLexeme] at h
  next c rest hr =>
    have hpos : 0 < reader.rest.length := by simp [hr]
    split
    next key kind hk =>
      have hne := Token.ne_nil_of_mem_table _ (Token.mem_table_of_key? hk)
      have hlen : 0 < key.length := List.length_pos_iff.2 hne
      simp only [rest_advanceBy, List.length_drop]
      omega
    next hk =>
      split
      next hn =>
        have := length_run_pos rest hn
        simp only [readNumber, readRun, Prod.map_snd, id_eq, rest_advanceBy, List.length_drop, hr]
          at hpos ⊢
        omega
      next hn =>
        split
        next hq => exact length_rest_readString_lt (by simp [hr])
        next hq =>
          have hi : Token.isIdentifierChar c = true := by
            rw [hr] at h hk
            simpa [Token.beginsLexeme, hk, hn, hq] using h
          have := length_run_pos rest hi
          simp only [readIdentifier, readRun, Prod.map_snd, id_eq, rest_advanceBy,
            List.length_drop, hr] at hpos ⊢
          omega

theorem length_rest_next_lt {reader after : Reader} {token : Token}
    (h : reader.next = (.ok token, after)) (hk : token.kind ≠ .endOfFile) :
    after.rest.length < reader.rest.length := by
  have hle : reader.skipGap.rest.length ≤ reader.rest.length := by simp [skipGap]
  rcases Token.drop_gap false reader.rest with hd | hd
  · exfalso
    have hn : reader.skipGap.rest = [] := by simpa [skipGap] using hd
    apply hk
    simp only [next, readLexeme, hn, Prod.mk.injEq, Except.ok.injEq] at h
    rw [← h.1]
  · have hlt : reader.next.2.rest.length < reader.skipGap.rest.length :=
      length_rest_readLexeme_lt (by simpa [skipGap] using hd)
    rw [h] at hlt
    exact Nat.lt_of_lt_of_le hlt hle

def tokens (reader : Reader) : Except SyntaxError (List Token) :=
  match _h : reader.next with
  | (.error error, _) => .error error
  | (.ok token, after) =>
    if _hk : token.kind = .endOfFile then .ok [token]
    else after.tokens.map (token :: ·)
termination_by reader.rest.length
decreasing_by exact length_rest_next_lt _h _hk

end Reader

def Token.ofSource (source : List Char) : Except SyntaxError (List Token) :=
  (Reader.ofText source).tokens

end Rech
