import Rech.Proofs.Token.Exact

/-!
# Readers under any calls

Whatever a reader is told to do, it goes on by a number of characters, so it always
stands where advancing from the start of the text would have brought it. From that
follow the character in front, the line and the column, past the end of the text as
well. A call of `next` comes to a later position of the text unless it finds the end,
which bounds the number of its calls.
-/

namespace Rech

/-- Where the last line of a text starts: behind its last newline, if it has one. -/
structure Text.LineStart (text : List Char) (start : Nat) : Prop where
  begins : start = 0 ∨ ∃ index, text[index]? = some '\n' ∧ start = index + 1
  inLine : '\n' ∉ text.drop start

namespace Text.LineStart

variable {text : List Char} {start : Nat}

theorem nil : LineStart [] 0 := ⟨.inl rfl, List.not_mem_nil⟩

theorem le_length (h : LineStart text start) : start ≤ text.length := by
  rcases h.begins with rfl | ⟨index, hnewline, rfl⟩
  · exact Nat.zero_le _
  · exact (List.getElem?_eq_some_iff.1 hnewline).1

theorem newline (text : List Char) : LineStart (text ++ ['\n']) (text.length + 1) where
  begins := .inr ⟨text.length, by simp, rfl⟩
  inLine := by simp

theorem concat (h : LineStart text start) {c : Char} (hc : c ≠ '\n') :
    LineStart (text ++ [c]) start where
  begins := h.begins.imp_right fun ⟨index, hnewline, hstart⟩ =>
    ⟨index, by rw [List.getElem?_append_left (List.getElem?_eq_some_iff.1 hnewline).1, hnewline],
      hstart⟩
  inLine := by
    rw [List.drop_append_of_le_length h.le_length, List.mem_append, List.mem_singleton]
    exact not_or.2 ⟨h.inLine, Ne.symm hc⟩

end Text.LineStart

namespace Place

theorem line_after (place : Place) (c : Option Char) :
    (place.after c).line = place.line + c.toList.count '\n' := by
  cases c with
  | none => simp [after]
  | some c =>
    by_cases hc : c = '\n'
    · subst hc
      rfl
    · simp [after, hc]

theorem column_after {place : Place} {c : Option Char} (h : c ≠ some '\n') :
    (place.after c).column = place.column + 1 := by
  unfold after
  split
  next => exact absurd rfl h
  next => rfl

end Place

namespace Reader

/-- The fields of a reader agree with its offset in a text. Past the end the column goes
on counting. -/
structure Coherent (text : List Char) (reader : Reader) : Prop where
  rest : reader.rest = text.drop reader.offset
  current : reader.rest.head? = text[reader.offset]?
  line : reader.place.line = 1 + (text.take reader.offset).count '\n'
  column : ∃ start, Text.LineStart (text.take reader.offset) start ∧
    reader.place.column = 1 + reader.offset - start

/-- What a reader can be told to do. -/
inductive Call where
  | advance
  | advanceBy (count : Int)
  | skipComment
  | key
  | readNumber
  | readString
  | readIdentifier
  | next

namespace Call

/-- The reader that a call leaves, whether it answers or fails. No character is passed by
looking for a key, nor by a count below zero. -/
def leave (reader : Reader) : Call → Reader
  | .advance => reader.advance
  | .advanceBy count => reader.advanceBy count.toNat
  | .skipComment => reader.skipComment
  | .key => reader
  | .readNumber => reader.readNumber.2
  | .readString => reader.readString.2
  | .readIdentifier => reader.readIdentifier.2
  | .next => reader.next.2

def trail (reader : Reader) : List Call → List Reader
  | [] => [reader]
  | call :: calls => reader :: trail (call.leave reader) calls

end Call

-- ---------------------------------------------------------------------------
-- Every call is an advance
-- ---------------------------------------------------------------------------

variable {text : List Char}

theorem advanceBy_advanceBy (one two : Nat) (reader : Reader) :
    (reader.advanceBy one).advanceBy two = reader.advanceBy (one + two) := by
  induction one generalizing reader with
  | zero => rw [Nat.zero_add]; rfl
  | succ one ih => rw [Nat.succ_add, advanceBy, ih, advanceBy]

theorem advanceBy_succ (count : Nat) (reader : Reader) :
    reader.advanceBy (count + 1) = (reader.advanceBy count).advance :=
  (advanceBy_advanceBy count 1 reader).symm

theorem exists_readString (reader : Reader) :
    ∃ count, reader.readString.2 = reader.advanceBy count := by
  rw [readString]
  split
  · exact ⟨_ + 1 + 1, (advanceBy_succ _ reader.advance).symm⟩
  · exact ⟨_ + 1, rfl⟩

theorem exists_readLexeme (reader : Reader) :
    ∃ count, reader.readLexeme.2 = reader.advanceBy count := by
  rw [readLexeme]
  split
  next => exact ⟨0, rfl⟩
  next =>
    split
    next => exact ⟨_, rfl⟩
    next =>
      split
      next => exact ⟨_, rfl⟩
      next =>
        split
        next => exact exists_readString reader
        next => exact ⟨_, rfl⟩

theorem Call.exists_leave (call : Call) (reader : Reader) :
    ∃ count, call.leave reader = reader.advanceBy count := by
  cases call with
  | advance => exact ⟨1, rfl⟩
  | advanceBy | skipComment | readNumber | readIdentifier => exact ⟨_, rfl⟩
  | key => exact ⟨0, rfl⟩
  | readString => exact exists_readString reader
  | next =>
    obtain ⟨count, hcount⟩ := exists_readLexeme reader.skipGap
    exact ⟨_, hcount.trans (advanceBy_advanceBy _ count reader)⟩

theorem Call.exists_trail (calls : List Call) (reader : Reader) :
    ∃ counts : List Nat, counts.Pairwise (· ≤ ·) ∧
      trail reader calls = counts.map fun count => reader.advanceBy count := by
  induction calls generalizing reader with
  | nil => exact ⟨[0], List.pairwise_singleton _ _, rfl⟩
  | cons call calls ih =>
    obtain ⟨count, hleave⟩ := call.exists_leave reader
    obtain ⟨counts, hsorted, htrail⟩ := ih (reader.advanceBy count)
    refine ⟨0 :: counts.map (count + ·), ?_, ?_⟩
    · refine .cons (fun _ _ => Nat.zero_le _) ?_
      exact hsorted.map _ fun _ _ hle => Nat.add_le_add_left hle count
    · rw [trail, hleave, htrail, List.map_cons, List.map_map]
      simp only [advanceBy_advanceBy, Function.comp_def]
      rfl

-- ---------------------------------------------------------------------------
-- Where a reader stands
-- ---------------------------------------------------------------------------

theorem coherent_ofText (text : List Char) : (ofText text).Coherent text where
  rest := rfl
  current := List.head?_eq_getElem?
  line := rfl
  column := ⟨0, .nil, rfl⟩

theorem Coherent.advance {reader : Reader} (h : reader.Coherent text) :
    reader.advance.Coherent text := by
  have hrest : reader.advance.rest = text.drop (reader.offset + 1) := by
    rw [Reader.advance, h.rest, List.tail_drop]
  have htaken : text.take (reader.offset + 1) =
      text.take reader.offset ++ text[reader.offset]?.toList := List.take_add_one
  have hplace : reader.advance.place = reader.place.after text[reader.offset]? := by
    rw [Reader.advance, h.current]
  obtain ⟨start, hstart, hcolumn⟩ := h.column
  refine ⟨hrest, by rw [hrest, List.head?_drop]; rfl, ?_, ?_⟩
  · rw [hplace, Place.line_after, h.line]
    change _ = 1 + ((text.take (reader.offset + 1)).count '\n' : Int)
    rw [htaken, List.count_append]
    omega
  · change ∃ start, Text.LineStart (text.take (reader.offset + 1)) start ∧
      _ = 1 + ((reader.offset + 1 : Nat) : Int) - start
    rw [hplace, htaken]
    by_cases hnewline : text[reader.offset]? = some '\n'
    · have hlength : (text.take reader.offset).length = reader.offset :=
        List.length_take_of_le (Nat.le_of_lt (List.getElem?_eq_some_iff.1 hnewline).1)
      rw [hnewline]
      refine ⟨_, .newline _, ?_⟩
      rw [hlength]
      simp [Place.after]
    · refine ⟨start, ?_, ?_⟩
      · cases hc : text[reader.offset]? with
        | none => simpa using hstart
        | some c => exact hstart.concat fun hnl => hnewline (hnl ▸ hc)
      · rw [Place.column_after hnewline, hcolumn]
        omega

theorem coherent_advanceBy (text : List Char) (count : Nat) :
    ((ofText text).advanceBy count).Coherent text := by
  induction count with
  | zero => exact coherent_ofText text
  | succ count ih =>
    rw [advanceBy_succ]
    exact ih.advance

-- ---------------------------------------------------------------------------
-- Calls of `next`
-- ---------------------------------------------------------------------------

/-- A call of `next` finds the end of the text, or comes to a later position of it. -/
def NextAdvances (text : List Char) (reader : Reader) : Prop :=
  match reader.next with
  | (.ok token, after) =>
    if token.kind = .endOfFile then after.offset = text.length
    else reader.offset < after.offset ∧ after.offset ≤ text.length
  | (.error _, after) => reader.offset < after.offset ∧ after.offset ≤ text.length

theorem nextAdvances_behind (before rest : List Char) :
    NextAdvances (before ++ rest) (behind before rest) := by
  unfold NextAdvances
  cases Lexing.Front.total rest with
  | last gap =>
    rw [Lexing.next_last gap]
    rfl
  | token gap lexeme =>
    have hpos := List.length_pos_iff.2 lexeme.span_ne_nil
    rw [Lexing.next_token gap lexeme]
    dsimp only
    rw [if_neg lexeme.kind_ne_endOfFile]
    simp only [behind, List.length_append]
    omega
  | unclosed gap unclosed =>
    rw [Lexing.next_unclosed gap unclosed unclosed.beginsLexeme]
    simp only [behind, List.length_append, List.length_cons]
    omega

theorem behind_of_le {count : Nat} (h : count ≤ text.length) :
    (ofText text).advanceBy count = behind (text.take count) (text.drop count) := by
  have hadvance := advanceBy_behind [] (text.take count) (text.drop count)
  rwa [List.take_append_drop, List.length_take_of_le h, behind_nil, List.nil_append] at hadvance

theorem nextAdvances_advanceBy {count : Nat} (h : count ≤ text.length) :
    NextAdvances text ((ofText text).advanceBy count) := by
  have hbehind := nextAdvances_behind (text.take count) (text.drop count)
  rwa [List.take_append_drop, ← behind_of_le h] at hbehind

/-- What calls of `next` give in turn: tokens, and at last the end or an error. -/
inductive Drains : Reader → List Token → Except SyntaxError Token → Prop
  | last {reader after : Reader} {token : Token} (found : reader.next = (.ok token, after))
      (isEnd : token.kind = .endOfFile) : Drains reader [] (.ok token)
  | failed {reader after : Reader} (found : reader.next = (.error error, after)) :
      Drains reader [] (.error error)
  | token {reader after : Reader} {token : Token} (found : reader.next = (.ok token, after))
      (more : token.kind ≠ .endOfFile) (others : Drains after shown result) :
      Drains reader (token :: shown) result

theorem exists_drains (reader : Reader) : ∃ result, Drains reader reader.yielded result ∧
    reader.yielded.length ≤ reader.rest.length ∧
    reader.tokens = result.map fun last => reader.yielded ++ [last] := by
  fun_induction yielded reader with
  | case1 reader error after found => exact ⟨_, .failed found, Nat.zero_le _, tokens_of_error found⟩
  | case2 reader token after found isEnd =>
    exact ⟨_, .last found isEnd, Nat.zero_le _, tokens_of_end found isEnd⟩
  | case3 reader token after found more ih =>
    obtain ⟨result, hdrains, hlength, htokens⟩ := ih
    refine ⟨result, .token found more hdrains, ?_, ?_⟩
    · have := length_rest_next_lt found more
      rw [List.length_cons]
      omega
    · rw [tokens_of_next found more, htokens]
      cases result <;> rfl

/-- Readers under any calls, past the end and behind failures too, agree with their
offset, and the offset never gets less. From each of them a call of `next` goes on or
finds the end, so that all tokens are read in a bounded number of calls. -/
theorem coherent_under_calls (text : List Char) (calls : List Call) :
    (∀ reader ∈ Call.trail (ofText text) calls,
      reader.Coherent text ∧
      (reader.offset ≤ text.length → NextAdvances text reader) ∧
      ∃ result, Drains reader reader.yielded result ∧
        reader.yielded.length ≤ text.length - reader.offset ∧
        reader.tokens = result.map fun last => reader.yielded ++ [last]) ∧
    (Call.trail (ofText text) calls).Pairwise fun one two => one.offset ≤ two.offset := by
  obtain ⟨counts, hsorted, htrail⟩ := Call.exists_trail calls (ofText text)
  have hoffset : ∀ count, ((ofText text).advanceBy count).offset = count := fun count => by
    rw [offset_advanceBy]
    exact Nat.zero_add count
  rw [htrail]
  refine ⟨List.forall_mem_map.2 fun count _ => ⟨coherent_advanceBy text count, ?_, ?_⟩, ?_⟩
  · intro hle
    rw [hoffset] at hle
    exact nextAdvances_advanceBy hle
  · obtain ⟨result, hdrains, hlength, htokens⟩ := exists_drains ((ofText text).advanceBy count)
    refine ⟨result, hdrains, ?_, htokens⟩
    rwa [(coherent_advanceBy text count).rest, List.length_drop] at hlength
  · refine List.pairwise_map.2 (hsorted.imp fun hle => ?_)
    rwa [hoffset, hoffset]

/-- A reader is told to go on two characters behind a string that its line does not close. -/
theorem coherent_under_calls_unclosed :
    (⟨[], 6, ⟨2, 5⟩⟩ : Reader) ∈
        Call.trail (ofText ['x', '\n', '"', 'y']) [.next, .next, .advanceBy 2] ∧
      (⟨[], 6, ⟨2, 5⟩⟩ : Reader).Coherent ['x', '\n', '"', 'y'] := by
  have hmem : (⟨[], 6, ⟨2, 5⟩⟩ : Reader) ∈
      Call.trail (ofText ['x', '\n', '"', 'y']) [.next, .next, .advanceBy 2] := by
    decide +kernel
  exact ⟨hmem, ((coherent_under_calls _ _).1 _ hmem).1⟩

end Reader

end Rech
