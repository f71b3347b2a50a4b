import Std.Data.String.ToInt
import Rech.Proofs.Binary64.Display
import Rech.Proofs.Outline.Quoting
import Rech.Proofs.Text.Spans

/-!
# The bracketed form tells outlines apart

The first character of a bracketed form tells a text, a word, a list and a map. A
text ends at its closing quote and a word before a comma, a newline or the end, and
the items of a list or map come to an end where no comma stands between them. So an
outline is known from its form even if others stand behind it.
-/

namespace Rech

-- ---------------------------------------------------------------------------
-- Number words
-- ---------------------------------------------------------------------------

namespace Binary64

def worded : Style where
  width := 2
  nan := displayed.nan
  infinite := displayed.infinite
  magnitude := inspectedMagnitude
  signedZero := true

theorem lawful_worded : worded.Lawful where
  nan := lawful_displayed.nan
  infinite := lawful_displayed.infinite
  distinct := lawful_displayed.distinct
  magnitude := lawful_inspected.magnitude

theorem toList_numberWord (x : Binary64) : (Outline.numberWord x).toList = worded.shown x := by
  cases x with
  | nan => rfl
  | infinite negative => cases negative <;> rfl
  | finite => exact toList_inspect _

theorem numberWord_inj (h : Outline.numberWord x = Outline.numberWord y) : x = y := by
  have hshown := congrArg String.toList h
  rw [toList_numberWord, toList_numberWord] at hshown
  exact lawful_worded.eq_of_shown rfl hshown

theorem mark_mem_inspectedMagnitude (h : Representable units) :
    '.' ∈ inspectedMagnitude units ∨ 'e' ∈ inspectedMagnitude units := by
  unfold inspectedMagnitude
  split
  next => exact .inl (by decide)
  next hne => exact (shortest_spells hne h.2).point_or_e_mem_text 2

/-- The characters of which a number word has one, and a whole number none. -/
def numberMarks : List Char := ['.', 'e', 'N', 'I']

theorem exists_mark_numberWord (x : Binary64) :
    ∃ c ∈ (Outline.numberWord x).toList, c ∈ numberMarks := by
  have hbody : ∃ c ∈ worded.body x, c ∈ numberMarks := by
    cases x with
    | nan => exact ⟨'N', by decide, by decide⟩
    | infinite => exact ⟨'I', List.mem_cons_self, by decide⟩
    | finite negative units h =>
      rcases mark_mem_inspectedMagnitude h with hpoint | he
      · exact ⟨_, hpoint, by decide⟩
      · exact ⟨_, he, by decide⟩
  obtain ⟨c, hc, hmark⟩ := hbody
  refine ⟨c, ?_, hmark⟩
  rw [toList_numberWord, Style.shown, withSign]
  split
  next => exact List.mem_cons_of_mem _ hc
  next => exact hc

end Binary64

namespace Outline

open Binary64 (numberMarks worded numberChars)

-- ---------------------------------------------------------------------------
-- Words
-- ---------------------------------------------------------------------------

def separators : List Char := [',', '\n', '"', '[', '\x7b']

/-- What is written without quotes or brackets. -/
def word? : Outline → Option String
  | .whole value => some (toString value)
  | .number value => some (numberWord value)
  | .truth flag => some (if flag then "true" else "false")
  | .absent => some "null"
  | .text _ | .list _ | .map _ => none

theorem json_of_word? {outline : Outline} (h : outline.word? = some word) (level : Nat) :
    outline.json level = word := by
  cases outline with
  | text | list | map => exact nomatch h
  | whole | number | truth | absent => exact Option.some.inj h

theorem isDigit_or_minus (n : Int) : ∀ c ∈ (toString n).toList, c = '-' ∨ c.isDigit = true := by
  have hnat (n : Nat) : ∀ c ∈ n.repr.toList, c.isDigit = true := fun c hc => by
    rw [Nat.repr, String.toList_ofList] at hc
    exact Nat.isDigit_of_mem_toDigits (by decide) (by decide) hc
  cases n with
  | ofNat n => exact fun c hc => .inr (hnat n c hc)
  | negSucc n =>
    intro c hc
    have hsplit : (toString (Int.negSucc n)).toList = '-' :: (n + 1).repr.toList :=
      String.toList_append
    rcases List.mem_cons.1 (hsplit ▸ hc) with rfl | hc
    · exact .inl rfl
    · exact .inr (hnat _ c hc)

theorem not_mem_whole {marks : List Char} (n : Int)
    (h : ∀ c ∈ marks, c ≠ '-' ∧ c.isDigit = false) : ∀ c ∈ (toString n).toList, c ∉ marks := by
  intro c hc hmark
  obtain ⟨hminus, hdigit⟩ := h c hmark
  rcases isDigit_or_minus n c hc with rfl | hisDigit
  · exact hminus rfl
  · rw [hdigit] at hisDigit
    exact absurd hisDigit (by decide)

theorem mem_numberWord (hc : c ∈ (numberWord x).toList) :
    c ∈ numberChars ++ (worded.nan ++ worded.infinite) := by
  rw [Binary64.toList_numberWord] at hc
  rw [List.mem_append, List.mem_append]
  exact Binary64.lawful_worded.mem_shown hc

theorem toString_ne_empty (n : Int) : toString n ≠ "" := by
  cases n with
  | ofNat n => exact Nat.repr_ne_empty
  | negSucc n => exact fun h => absurd (congrArg String.toList h) (by simp [toString, Int.repr])

theorem word_plain {outline : Outline} (h : outline.word? = some word) :
    word ≠ "" ∧ ∀ c ∈ word.toList, c ∉ separators := by
  cases outline with
  | text | list | map => exact nomatch h
  | whole n =>
    obtain rfl := Option.some.inj h
    exact ⟨toString_ne_empty n, not_mem_whole n (by decide)⟩
  | number x =>
    obtain rfl := Option.some.inj h
    have hchars : ∀ c ∈ numberChars ++ (worded.nan ++ worded.infinite), c ∉ separators := by decide
    obtain ⟨c, hc, -⟩ := Binary64.exists_mark_numberWord x
    refine ⟨fun hempty => ?_, fun c hc => hchars c (mem_numberWord hc)⟩
    rw [hempty] at hc
    exact absurd hc List.not_mem_nil
  | truth flag =>
    obtain rfl := Option.some.inj h
    cases flag <;> exact ⟨by decide, by decide⟩
  | absent =>
    obtain rfl := Option.some.inj h
    exact ⟨by decide, by decide⟩

def fixedWords : List String := ["true", "false", "null"]

theorem numberWord_ne_whole (x : Binary64) (n : Int) : numberWord x ≠ toString n := by
  intro heq
  obtain ⟨c, hc, hmark⟩ := Binary64.exists_mark_numberWord x
  rw [heq] at hc
  exact not_mem_whole n (by decide) c hc hmark

theorem exists_letter (h : word ∈ fixedWords) : ∃ c ∈ ['u', 'l'], c ∈ word.toList := by
  simp only [fixedWords, List.mem_cons, List.not_mem_nil, or_false] at h
  rcases h with rfl | rfl | rfl
  · exact ⟨'u', by decide, by decide⟩
  · exact ⟨'l', by decide, by decide⟩
  · exact ⟨'l', by decide, by decide⟩

theorem numberWord_not_fixed (x : Binary64) : numberWord x ∉ fixedWords := by
  have hno : ∀ c ∈ ['u', 'l'], c ∉ numberChars ++ (worded.nan ++ worded.infinite) := by decide
  intro hmem
  obtain ⟨c, hletter, hc⟩ := exists_letter hmem
  exact hno c hletter (mem_numberWord hc)

theorem whole_not_fixed (n : Int) : toString n ∉ fixedWords := by
  intro hmem
  obtain ⟨c, hletter, hc⟩ := exists_letter hmem
  exact not_mem_whole n (by decide) c hc hletter

def ofFixedWord (word : String) : Outline :=
  if word = "null" then .absent else .truth (word = "true")

/-- What a word stands for. -/
inductive WordOf : String → Outline → Prop
  | whole (value : Int) : WordOf (toString value) (.whole value)
  | number (value : Binary64) : WordOf (numberWord value) (.number value)
  | fixed (word : String) (listed : word ∈ fixedWords) : WordOf word (ofFixedWord word)

theorem wordOf_of_word? {outline : Outline} (h : outline.word? = some word) :
    WordOf word outline := by
  cases outline with
  | text | list | map => exact nomatch h
  | whole n =>
    obtain rfl := Option.some.inj h
    exact .whole n
  | number x =>
    obtain rfl := Option.some.inj h
    exact .number x
  | truth flag =>
    obtain rfl := Option.some.inj h
    cases flag with
    | true => exact .fixed "true" (by decide)
    | false => exact .fixed "false" (by decide)
  | absent =>
    obtain rfl := Option.some.inj h
    exact .fixed "null" (by decide)

theorem WordOf.unique (h : WordOf word one) (h' : WordOf word other) : one = other := by
  cases h with
  | whole n =>
    generalize hword : toString n = word at h'
    cases h' with
    | whole m => exact congrArg Outline.whole (Int.repr_inj.1 hword)
    | number y => exact absurd hword.symm (numberWord_ne_whole y n)
    | fixed _ listed => exact absurd (hword ▸ listed) (whole_not_fixed n)
  | number x =>
    generalize hword : numberWord x = word at h'
    cases h' with
    | whole m => exact absurd hword (numberWord_ne_whole x m)
    | number y => exact congrArg Outline.number (Binary64.numberWord_inj hword)
    | fixed _ listed => exact absurd (hword ▸ listed) (numberWord_not_fixed x)
  | fixed _ listed =>
    cases h' with
    | whole m => exact absurd listed (whole_not_fixed m)
    | number y => exact absurd listed (numberWord_not_fixed y)
    | fixed => rfl

theorem word_append_ne {outline : Outline} (h : outline.word? = some word) (hc : c ∈ separators)
    (rest others : List Char) : word.toList ++ rest ≠ c :: others := by
  obtain ⟨hne, hchars⟩ := word_plain h
  obtain ⟨d, tail, hword⟩ := List.exists_cons_of_ne_nil (mt String.toList_eq_nil_iff.1 hne)
  rw [hword] at hchars ⊢
  rintro heq
  obtain rfl : d = c := (List.cons.inj heq).1
  exact hchars d List.mem_cons_self hc

-- ---------------------------------------------------------------------------
-- Items
-- ---------------------------------------------------------------------------

/-- What may stand behind an item. -/
def EndsItem (rest : List Char) : Prop := ∀ c ∈ rest.head?, c = ',' ∨ c = '\n'

/-- The form of a value is told from any other one with something behind it. -/
def Told (write : α → String) (a : α) : Prop :=
  ∀ ⦃b : α⦄ ⦃rest others : List Char⦄, EndsItem rest → EndsItem others →
    (write a).toList ++ rest = (write b).toList ++ others → a = b ∧ rest = others

section
variable (closing : String) (level : Nat)

def itemsBehind : List String → List Char
  | [] => '\n' :: ((indent 1 level).toList ++ closing.toList)
  | item :: others =>
    ',' :: '\n' :: ((indent 1 (level + 1)).toList ++ (item.toList ++ itemsBehind others))

def itemsWithin : List String → List Char
  | [] => closing.toList
  | item :: others =>
    '\n' :: ((indent 1 (level + 1)).toList ++ (item.toList ++ itemsBehind closing level others))

theorem toList_intercalate (item : String) (others : List String) :
    (",\n".intercalate ((item :: others).map (indent 1 (level + 1) ++ ·))).toList ++
        '\n' :: ((indent 1 level).toList ++ closing.toList) =
      (indent 1 (level + 1)).toList ++ (item.toList ++ itemsBehind closing level others) := by
  induction others generalizing item with
  | nil => simp [itemsBehind]
  | cons other others ih =>
    rw [List.map_cons, List.map_cons, String.intercalate_cons_cons, ← List.map_cons,
      String.toList_append, List.append_assoc, ih, itemsBehind]
    simp

theorem toList_bracketed (opening : String) (items : List String) :
    (bracketed opening closing level items).toList =
      opening.toList ++ itemsWithin closing level items := by
  cases items with
  | nil => exact String.toList_append
  | cons item others =>
    change (opening ++ "\n" ++
      ",\n".intercalate ((item :: others).map (indent 1 (level + 1) ++ ·)) ++
      "\n" ++ indent 1 level ++ closing).toList = _
    rw [itemsWithin, ← toList_intercalate closing level item others]
    simp only [String.toList_append, List.append_assoc]
    rfl

theorem endsItem_itemsBehind (items : List String) (rest : List Char) :
    EndsItem (itemsBehind closing level items ++ rest) := by
  cases items with
  | nil =>
    rintro c ⟨⟩
    exact .inr rfl
  | cons item others =>
    rintro c ⟨⟩
    exact .inl rfl

variable {closing level} {write : α → String} {items others : List α}

theorem itemsBehind_inj (h : ∀ a ∈ items, Told write a)
    (heq : itemsBehind closing level (items.map write) ++ rest =
      itemsBehind closing level (others.map write) ++ rest') : items = others ∧ rest = rest' := by
  induction items generalizing others with
  | nil =>
    cases others with
    | nil => exact ⟨rfl, List.append_cancel_left heq⟩
    | cons b others => exact absurd (List.cons.inj heq).1 (by decide)
  | cons a items ih =>
    cases others with
    | nil => exact absurd (List.cons.inj heq).1 (by decide)
    | cons b others =>
      obtain ⟨ha, hitems⟩ := List.forall_mem_cons.1 h
      simp only [List.map_cons, itemsBehind, List.cons_append, List.append_assoc,
        List.cons.injEq, true_and, List.append_cancel_left_eq] at heq
      obtain ⟨rfl, hrest⟩ := ha (endsItem_itemsBehind _ _ _ _) (endsItem_itemsBehind _ _ _ _) heq
      obtain ⟨rfl, hend⟩ := ih hitems hrest
      exact ⟨rfl, hend⟩

theorem itemsWithin_inj (bracket : Char) (hclosing : closing.toList = [bracket])
    (hbracket : bracket ≠ '\n') (h : ∀ a ∈ items, Told write a)
    (heq : itemsWithin closing level (items.map write) ++ rest =
      itemsWithin closing level (others.map write) ++ rest') : items = others ∧ rest = rest' := by
  cases items with
  | nil =>
    cases others with
    | nil => exact ⟨rfl, List.append_cancel_left heq⟩
    | cons b others =>
      rw [List.map_nil, itemsWithin, hclosing] at heq
      exact absurd (List.cons.inj heq).1 hbracket
  | cons a items =>
    cases others with
    | nil =>
      rw [List.map_nil, itemsWithin, hclosing] at heq
      exact absurd (List.cons.inj heq).1.symm hbracket
    | cons b others =>
      obtain ⟨ha, hitems⟩ := List.forall_mem_cons.1 h
      simp only [List.map_cons, itemsWithin, List.cons_append, List.append_assoc,
        List.cons.injEq, true_and, List.append_cancel_left_eq] at heq
      obtain ⟨rfl, hrest⟩ := ha (endsItem_itemsBehind _ _ _ _) (endsItem_itemsBehind _ _ _ _) heq
      obtain ⟨rfl, hend⟩ := itemsBehind_inj hitems hrest
      exact ⟨rfl, hend⟩

end

theorem itemTexts_eq_map (level : Nat) (items : List Outline) :
    itemTexts level items = items.map (json level) := by
  induction items with
  | nil => rfl
  | cons item others ih => rw [itemTexts, ih, List.map_cons]

def entryText (level : Nat) (entry : String × Outline) : String :=
  s!"{quoted entry.1}: {entry.2.json level}"

theorem entryTexts_eq_map (level : Nat) (entries : List (String × Outline)) :
    entryTexts level entries = entries.map (entryText level) := by
  induction entries with
  | nil => rfl
  | cons entry others ih => rw [entryTexts, ih, List.map_cons]; rfl

theorem toList_json_list (level : Nat) (items : List Outline) :
    ((list items).json level).toList =
      '[' :: itemsWithin "]" level (items.map (json (level + 1))) := by
  rw [json, toList_bracketed, itemTexts_eq_map]
  rfl

theorem toList_json_map (level : Nat) (entries : List (String × Outline)) :
    ((map entries).json level).toList =
      '\x7b' :: itemsWithin "\x7d" level (entries.map (entryText (level + 1))) := by
  rw [json, toList_bracketed, entryTexts_eq_map]
  rfl

theorem toList_json_text (level : Nat) (content : String) :
    ((text content).json level).toList =
      '"' :: (content.toList.flatMap escapedChar ++ ['"']) := by
  rw [json, quoted, String.toList_ofList]
  rfl

-- ---------------------------------------------------------------------------
-- Outlines
-- ---------------------------------------------------------------------------

theorem word_append_inj {one other : Outline} (h : one.word? = some word)
    (h' : other.word? = some word') (hrest : EndsItem rest) (hothers : EndsItem others)
    (heq : word.toList ++ rest = word'.toList ++ others) : one = other ∧ rest = others := by
  have hinside {outline : Outline} {word : String} (h : outline.word? = some word) :
      ∀ c ∈ word.toList, decide (c ∉ separators) = true := fun c hc =>
    decide_eq_true ((word_plain h).2 c hc)
  have hends {rest : List Char} (hrest : EndsItem rest) :
      ∀ c ∈ rest.head?, decide (c ∉ separators) = false := by
    intro c hc
    rcases hrest c hc with rfl | rfl <;> decide
  obtain ⟨hword, hend⟩ := Text.append_inj_of_span (hinside h) (hinside h') (hends hrest)
    (hends hothers) heq
  obtain rfl : word = word' := String.toList_injective hword
  exact ⟨(wordOf_of_word? h).unique (wordOf_of_word? h'), hend⟩

theorem told_word {outline : Outline} (h : outline.word? = some word) (level : Nat) :
    Told (json level) outline := by
  intro b rest others hrest hothers heq
  rw [json_of_word? h] at heq
  cases hb : b.word? with
  | some word' =>
    rw [json_of_word? hb] at heq
    exact word_append_inj h hb hrest hothers heq
  | none =>
    cases b with
    | whole | number | truth | absent => exact nomatch hb
    | text content =>
      rw [toList_json_text] at heq
      exact absurd heq (word_append_ne h (by decide) _ _)
    | list items =>
      rw [toList_json_list] at heq
      exact absurd heq (word_append_ne h (by decide) _ _)
    | map entries =>
      rw [toList_json_map] at heq
      exact absurd heq (word_append_ne h (by decide) _ _)

theorem told_text (content : String) (level : Nat) : Told (json level) (.text content) := by
  intro b rest others hrest hothers heq
  cases hb : b.word? with
  | some word =>
    rw [json_of_word? hb, toList_json_text] at heq
    exact absurd heq.symm (word_append_ne hb (by decide) _ _)
  | none =>
    cases b with
    | whole | number | truth | absent => exact nomatch hb
    | text content' =>
      rw [json, json] at heq
      obtain ⟨rfl, hend⟩ := quoted_append_inj heq
      exact ⟨rfl, hend⟩
    | list items =>
      rw [toList_json_text, toList_json_list] at heq
      exact absurd (List.cons.inj heq).1 (by decide)
    | map entries =>
      rw [toList_json_text, toList_json_map] at heq
      exact absurd (List.cons.inj heq).1 (by decide)

theorem told_list {items : List Outline} (h : ∀ item ∈ items, Told (json (level + 1)) item) :
    Told (json level) (.list items) := by
  intro b rest others hrest hothers heq
  rw [toList_json_list] at heq
  cases hb : b.word? with
  | some word =>
    rw [json_of_word? hb] at heq
    exact absurd heq.symm (word_append_ne hb (by decide) _ _)
  | none =>
    cases b with
    | whole | number | truth | absent => exact nomatch hb
    | text content =>
      rw [toList_json_text] at heq
      exact absurd (List.cons.inj heq).1 (by decide)
    | list items' =>
      rw [toList_json_list] at heq
      obtain ⟨rfl, hend⟩ := itemsWithin_inj ']' rfl (by decide) h (List.cons.inj heq).2
      exact ⟨rfl, hend⟩
    | map entries =>
      rw [toList_json_map] at heq
      exact absurd (List.cons.inj heq).1 (by decide)

theorem told_entry {value : Outline} (h : Told (json level) value) (key : String) :
    Told (entryText level) (key, value) := by
  rintro ⟨key', value'⟩ rest others hrest hothers heq
  have hsplit (entry : String × Outline) : (entryText level entry).toList =
      (quoted entry.1).toList ++ ':' :: ' ' :: (entry.2.json level).toList := by
    change (quoted entry.1 ++ ": " ++ entry.2.json level).toList = _
    rw [String.toList_append, String.toList_append, List.append_assoc]
    rfl
  rw [hsplit, hsplit, List.append_assoc, List.append_assoc] at heq
  obtain ⟨rfl, hvalue⟩ := quoted_append_inj heq
  obtain ⟨rfl, hend⟩ := h hrest hothers (List.cons.inj (List.cons.inj hvalue).2).2
  exact ⟨rfl, hend⟩

theorem told_map {entries : List (String × Outline)}
    (h : ∀ entry ∈ entries, Told (json (level + 1)) entry.2) :
    Told (json level) (.map entries) := by
  intro b rest others hrest hothers heq
  rw [toList_json_map] at heq
  cases hb : b.word? with
  | some word =>
    rw [json_of_word? hb] at heq
    exact absurd heq.symm (word_append_ne hb (by decide) _ _)
  | none =>
    cases b with
    | whole | number | truth | absent => exact nomatch hb
    | text content =>
      rw [toList_json_text] at heq
      exact absurd (List.cons.inj heq).1 (by decide)
    | list items =>
      rw [toList_json_list] at heq
      exact absurd (List.cons.inj heq).1 (by decide)
    | map entries' =>
      rw [toList_json_map] at heq
      obtain ⟨rfl, hend⟩ := itemsWithin_inj '\x7d' rfl (by decide)
        (fun entry hentry => told_entry (h entry hentry) entry.1) (List.cons.inj heq).2
      exact ⟨rfl, hend⟩

theorem told_json : ∀ (outline : Outline) (level : Nat), Told (json level) outline
  | .text content, level => told_text content level
  | .whole _, level => told_word rfl level
  | .number _, level => told_word rfl level
  | .truth _, level => told_word rfl level
  | .absent, level => told_word rfl level
  | .list items, level => told_list fun item _ => told_json item (level + 1)
  | .map entries, level => told_map fun entry _ => told_json entry.2 (level + 1)
termination_by outline => sizeOf outline
decreasing_by
  · have := List.sizeOf_lt_of_mem ‹item ∈ items›
    simp only [list.sizeOf_spec]
    omega
  · have := List.sizeOf_lt_of_mem ‹entry ∈ entries›
    obtain ⟨key, value⟩ := entry
    simp only [map.sizeOf_spec, Prod.mk.sizeOf_spec] at this ⊢
    omega

theorem json_inj {one other : Outline} (h : one.json level = other.json level) : one = other := by
  have hnil : EndsItem [] := fun c hc => nomatch hc
  exact (told_json one level hnil hnil (congrArg (·.toList ++ []) h)).1

end Outline

end Rech
