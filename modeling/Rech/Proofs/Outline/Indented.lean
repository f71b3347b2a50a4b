import Rech.Outline.Basic
import Rech.Proofs.Text.InLine
import Rech.Proofs.Text.Spans

/-!
# The indented form tells outlines apart

Nothing is quoted in the indented form, so outlines are told apart only up to what
their scalars look like, and only if no scalar leaves its line, no key has a space or
a colon, no list has scalars and no map is empty. The line that begins a part of an
outline has a margin of its own level. The lines of the part come to an end where a
line with a smaller margin stands.
-/

namespace Rech

-- ---------------------------------------------------------------------------
-- Lines
-- ---------------------------------------------------------------------------

namespace Text

theorem printed_cons (line : String) (others : List String) :
    printed (line :: others) = line ++ "\n" ++ printed others := by
  rw [printed, List.map_cons, String.join_cons, printed]

theorem intercalate_newline (line : String) (others : List String) :
    "\n".intercalate (line :: others) ++ "\n" = printed (line :: others) := by
  induction others generalizing line with
  | nil => simp [printed, String.join_cons]
  | cons other others ih =>
    rw [String.intercalate_cons_cons, String.append_assoc, ih, printed_cons line]

theorem intercalate_newline_inj (hne : shown ≠ []) (hne' : others ≠ [])
    (h : ∀ line ∈ shown, InLine line) (h' : ∀ line ∈ others, InLine line)
    (heq : "\n".intercalate shown = "\n".intercalate others) : shown = others := by
  obtain ⟨line, rest, rfl⟩ := List.exists_cons_of_ne_nil hne
  obtain ⟨line', rest', rfl⟩ := List.exists_cons_of_ne_nil hne'
  have hprinted : printed (line :: rest) = printed (line' :: rest') := by
    rw [← intercalate_newline, heq, intercalate_newline]
  refine (List.map_inj_right fun _ _ => String.toList_injective).1 ?_
  rw [← lines_printed h, hprinted, lines_printed h']

end Text

open Text (InLine)

namespace Outline

/-- A line that does not begin with its margin. -/
def Flush (content : String) : Prop := ∃ c rest, content.toList = c :: rest ∧ c ≠ ' '

theorem Flush.append (h : Flush content) (behind : String) : Flush (content ++ behind) := by
  obtain ⟨c, rest, hcontent, hc⟩ := h
  exact ⟨c, rest ++ behind.toList, by rw [String.toList_append, hcontent, List.cons_append], hc⟩

theorem inLine_margin (level : Int) : InLine (margin level) := by
  simp [margin, indent, List.mem_replicate]

theorem margin_append_ne_empty (h : Flush content) (level : Int) :
    margin level ++ content ≠ "" := by
  obtain ⟨c, rest, hcontent, -⟩ := h
  intro hempty
  have hnil := congrArg String.toList hempty
  rw [String.toList_append, hcontent] at hnil
  exact absurd hnil (by simp)

theorem margin_append_inj (h : Flush content) (h' : Flush content') (hone : 0 ≤ one)
    (hother : 0 ≤ other) (heq : margin one ++ content = margin other ++ content') :
    one = other ∧ content = content' := by
  have hspaces (count : Nat) : ∀ c ∈ List.replicate count ' ', (c == ' ') = true := by
    simp [List.mem_replicate]
  have hflush {content : String} (h : Flush content) :
      ∀ c ∈ content.toList.head?, (c == ' ') = false := by
    obtain ⟨c, rest, hcontent, hc⟩ := h
    simp [hcontent, hc]
  have hlists := congrArg String.toList heq
  simp only [margin, indent, String.toList_append, String.toList_ofList] at hlists
  obtain ⟨hmargin, hcontent⟩ :=
    Text.append_inj_of_span (hspaces _) (hspaces _) (hflush h) (hflush h') hlists
  have hlevel := congrArg List.length hmargin
  rw [List.length_replicate, List.length_replicate] at hlevel
  exact ⟨by omega, String.toList_injective hcontent⟩

/-- What may stand behind the lines from a level on. -/
def Closes (level : Int) (rest : List String) : Prop :=
  ∀ line ∈ rest.head?, ∃ lower content,
    0 ≤ lower ∧ lower < level ∧ Flush content ∧ line = margin lower ++ content

theorem Closes.mono (h : Closes level rest) (hle : level ≤ higher) : Closes higher rest := by
  intro line hline
  obtain ⟨lower, content, hlower, hlt, hrest⟩ := h line hline
  exact ⟨lower, content, hlower, by omega, hrest⟩

-- ---------------------------------------------------------------------------
-- Blocks of lines
-- ---------------------------------------------------------------------------

section
variable (level : Int) (head : α → String) (behind : α → List String)

/-- Parts one after another, each with its first line and the lines behind it. -/
def blocks (parts : List α) : List String :=
  parts.flatMap fun a => (margin level ++ head a) :: behind a

variable {level head behind} {parts others : List α}

theorem closes_blocks (hlevel : 0 ≤ level) (h : ∀ a ∈ parts, Flush (head a))
    (hrest : Closes level rest) : Closes (level + 1) (blocks level head behind parts ++ rest) := by
  cases parts with
  | nil => exact hrest.mono (by omega)
  | cons a parts =>
    rintro line ⟨⟩
    exact ⟨level, head a, hlevel, by omega, h a List.mem_cons_self, rfl⟩

theorem eq_nil_of_closes (hlevel : 0 ≤ level) (h : ∀ a ∈ parts, Flush (head a))
    (hcloses : Closes level (blocks level head behind parts ++ rest)) : parts = [] := by
  cases parts with
  | nil => rfl
  | cons a parts =>
    obtain ⟨lower, content, hlower, hlt, hcontent, heq⟩ := hcloses (margin level ++ head a) rfl
    have hsame := (margin_append_inj (h a List.mem_cons_self) hcontent hlevel hlower heq).1
    omega

/-- Blocks come back one by one, if each of them comes back with lines behind it. -/
theorem blocks_inj (seen : α → β) (hlevel : 0 ≤ level) (hflush : ∀ a ∈ parts, Flush (head a))
    (hflush' : ∀ b ∈ others, Flush (head b))
    (hpart : ∀ a ∈ parts, ∀ b ∈ others, ∀ rest rest', Closes (level + 1) rest →
      Closes (level + 1) rest' → head a = head b → behind a ++ rest = behind b ++ rest' →
      seen a = seen b ∧ rest = rest')
    (hrest : Closes level rest) (hrest' : Closes level rest')
    (heq : blocks level head behind parts ++ rest = blocks level head behind others ++ rest') :
    parts.map seen = others.map seen ∧ rest = rest' := by
  induction parts generalizing others with
  | nil =>
    change rest = _ at heq
    obtain rfl := eq_nil_of_closes hlevel hflush' (heq ▸ hrest)
    exact ⟨rfl, heq⟩
  | cons a parts ih =>
    cases others with
    | nil =>
      change _ = rest' at heq
      exact absurd (eq_nil_of_closes hlevel hflush (heq ▸ hrest')) (List.cons_ne_nil _ _)
    | cons b others =>
      obtain ⟨ha, hparts⟩ := List.forall_mem_cons.1 hflush
      obtain ⟨hb, hothers⟩ := List.forall_mem_cons.1 hflush'
      simp only [blocks, List.flatMap_cons, List.cons_append, List.append_assoc,
        List.cons.injEq] at heq
      obtain ⟨hhead, hbehind⟩ := heq
      obtain ⟨hseen, hbehind⟩ := hpart a List.mem_cons_self b List.mem_cons_self _ _
        (closes_blocks hlevel hparts hrest) (closes_blocks hlevel hothers hrest')
        (margin_append_inj ha hb hlevel hlevel hhead).2 hbehind
      obtain ⟨hseens, hend⟩ := ih hparts hothers
        (fun a ha b hb => hpart a (List.mem_cons_of_mem _ ha) b (List.mem_cons_of_mem _ hb)) hbehind
      exact ⟨by rw [List.map_cons, List.map_cons, hseen, hseens], hend⟩

theorem inLine_blocks (hhead : ∀ a ∈ parts, InLine (head a))
    (hbehind : ∀ a ∈ parts, ∀ line ∈ behind a, InLine line) :
    ∀ line ∈ blocks level head behind parts, InLine line := by
  intro line hline
  obtain ⟨a, ha, hline⟩ := List.mem_flatMap.1 hline
  rcases List.mem_cons.1 hline with rfl | hline
  · exact Text.inLine_append.2 ⟨inLine_margin level, hhead a ha⟩
  · exact hbehind a ha line hline

end

-- ---------------------------------------------------------------------------
-- What can be read
-- ---------------------------------------------------------------------------

def IsKey (key : String) : Prop := key ≠ "" ∧ ∀ c ∈ key.toList, c ∉ [' ', ':', '\n']

instance : DecidablePred IsKey := fun key =>
  inferInstanceAs (Decidable (key ≠ "" ∧ ∀ c ∈ key.toList, c ∉ [' ', ':', '\n']))

/-- The outlines whose indented form can be read. -/
inductive Legible : Outline → Prop
  | scalar {outline : Outline} (written : outline.scalar? = some content)
      (inLine : InLine content) : Legible outline
  -- A scalar below an item could be taken for an entry of a map.
  | list {items : List Outline} (nested : ∀ item ∈ items, item.scalar? = none)
      (legible : ∀ item ∈ items, Legible item) : Legible (.list items)
  | map {entries : List (String × Outline)} (nonempty : entries ≠ [])
      (keys : ∀ entry ∈ entries, IsKey entry.1) (legible : ∀ entry ∈ entries, Legible entry.2) :
      Legible (.map entries)

mutual
/-- An outline with no more than what is written of its scalars. -/
def shown : Outline → Outline
  | .list items => .list (shownItems items)
  | .map entries => .map (shownEntries entries)
  | outline => .text (outline.scalar?.getD "")

def shownItems : List Outline → List Outline
  | [] => []
  | item :: others => item.shown :: shownItems others

def shownEntries : List (String × Outline) → List (String × Outline)
  | [] => []
  | (key, value) :: others => (key, value.shown) :: shownEntries others
end

theorem shown_of_scalar? {outline : Outline} (h : outline.scalar? = some content) :
    outline.shown = .text content := by
  cases outline with
  | list | map => exact nomatch h
  | text | whole | number | truth | absent => exact congrArg text (by rw [h]; rfl)

theorem shown_list (items : List Outline) : (list items).shown = .list (items.map shown) := by
  have hitems : shownItems items = items.map shown := by
    induction items with
    | nil => rfl
    | cons item items ih => rw [shownItems, ih, List.map_cons]
  rw [shown, hitems]

def shownEntry (entry : String × Outline) : String × Outline := (entry.1, entry.2.shown)

theorem shown_map (entries : List (String × Outline)) :
    (map entries).shown = .map (entries.map shownEntry) := by
  have hentries : shownEntries entries = entries.map shownEntry := by
    induction entries with
    | nil => rfl
    | cons entry entries ih => rw [shownEntries, ih, List.map_cons, shownEntry]
  rw [shown, hentries]

-- ---------------------------------------------------------------------------
-- Entries
-- ---------------------------------------------------------------------------

def nested (level : Int) (outline : Outline) : List String :=
  match outline.scalar? with
  | some _ => []
  | none => outline.lines level

def entryHead (entry : String × Outline) : String :=
  match entry.2.scalar? with
  | some content => s!"{entry.1}: {content}"
  | none => entry.1 ++ ":"

def entryBehind (level : Int) (entry : String × Outline) : List String := entry.2.nested level

theorem itemLines_eq_blocks (h : ∀ item ∈ items, item.scalar? = none) (level : Int) :
    itemLines level items = blocks level (fun _ => "-") (nested (level + 1)) items := by
  induction items with
  | nil => rfl
  | cons item items ih =>
    obtain ⟨hitem, hitems⟩ := List.forall_mem_cons.1 h
    rw [itemLines, ih hitems, blocks, blocks, List.flatMap_cons, nested, hitem]

theorem entryLines_eq_blocks (level : Int) (entries : List (String × Outline)) :
    entryLines level entries = blocks level entryHead (entryBehind (level + 1)) entries := by
  induction entries with
  | nil => rfl
  | cons entry entries ih =>
    obtain ⟨key, value⟩ := entry
    rw [entryLines, ih, blocks, blocks, List.flatMap_cons, entryHead, entryBehind, nested]
    cases value.scalar? with
    | none => rw [← String.append_assoc]
    | some content =>
      change _ ++ _ = [margin level ++ (key ++ ": " ++ content)] ++ _
      rw [← String.append_assoc, ← String.append_assoc]
      rfl

theorem toList_entryHead (entry : String × Outline) : (entryHead entry).toList =
    entry.1.toList ++ ':' :: entry.2.scalar?.elim [] fun content => ' ' :: content.toList := by
  unfold entryHead
  cases entry.2.scalar? with
  | none => exact String.toList_append
  | some content =>
    change (entry.1 ++ ": " ++ content).toList = _
    rw [String.toList_append, String.toList_append, List.append_assoc]
    rfl

theorem IsKey.flush (h : IsKey key) : Flush key := by
  obtain ⟨hne, hchars⟩ := h
  obtain ⟨c, rest, hkey⟩ := List.exists_cons_of_ne_nil (mt String.toList_eq_nil_iff.1 hne)
  rw [hkey] at hchars
  exact ⟨c, rest, hkey, fun hc => hchars c List.mem_cons_self (by simp [hc])⟩

theorem flush_entryHead {entry : String × Outline} (h : IsKey entry.1) :
    Flush (entryHead entry) := by
  unfold entryHead
  split
  · exact (h.flush.append ": ").append _
  · exact h.flush.append ":"

theorem entryHead_inj {entry other : String × Outline} (h : IsKey entry.1) (h' : IsKey other.1)
    (heq : entryHead entry = entryHead other) :
    entry.1 = other.1 ∧ entry.2.scalar? = other.2.scalar? := by
  have hcolon {key : String} (h : IsKey key) : ':' ∉ key.toList := fun hmem =>
    h.2 ':' hmem (by decide)
  have hlists := congrArg String.toList heq
  rw [toList_entryHead, toList_entryHead] at hlists
  obtain ⟨hkey, hcontent⟩ := Text.append_cons_inj (hcolon h) (hcolon h') hlists
  refine ⟨String.toList_injective hkey, ?_⟩
  cases hvalue : entry.2.scalar? with
  | none =>
    cases hvalue' : other.2.scalar? with
    | none => rfl
    | some content' => simp [hvalue, hvalue'] at hcontent
  | some content =>
    cases hvalue' : other.2.scalar? with
    | none => simp [hvalue, hvalue'] at hcontent
    | some content' =>
      rw [hvalue, hvalue'] at hcontent
      exact congrArg some (String.toList_injective (List.cons.inj hcontent).2)

theorem item_ne_entryHead (entry : String × Outline) : "-" ≠ entryHead entry := by
  intro heq
  have hmem : ':' ∈ (entryHead entry).toList := by
    rw [toList_entryHead]
    exact List.mem_append_right _ List.mem_cons_self
  rw [← heq] at hmem
  exact absurd hmem (by decide)

theorem flush_item : Flush "-" := ⟨'-', [], rfl, by decide⟩

-- ---------------------------------------------------------------------------
-- Values
-- ---------------------------------------------------------------------------

theorem nested_of_scalar? {outline : Outline} (h : outline.scalar? = some content) (level : Int) :
    outline.nested level = [] := by
  rw [nested, h]

theorem nested_list_cons (h : ∀ part ∈ item :: items, part.scalar? = none) (level : Int) :
    (list (item :: items)).nested level =
      blocks level (fun _ => "-") (nested (level + 1)) (item :: items) :=
  itemLines_eq_blocks h level

theorem nested_map (hne : entries ≠ []) (level : Int) :
    (map entries).nested level = blocks level entryHead (entryBehind (level + 1)) entries := by
  obtain ⟨entry, entries, rfl⟩ := List.exists_cons_of_ne_nil hne
  exact entryLines_eq_blocks level _

/-- What is below an item or an entry is known from its lines, whatever closes it. -/
def Known (outline : Outline) : Prop :=
  ∀ ⦃level : Int⦄ ⦃other : Outline⦄ ⦃rest rest' : List String⦄, 0 ≤ level → Legible other →
    outline.scalar? = other.scalar? → Closes level rest → Closes level rest' →
    outline.nested level ++ rest = other.nested level ++ rest' →
    outline.shown = other.shown ∧ rest = rest'

theorem known_scalar {outline : Outline} (h : outline.scalar? = some content) : Known outline := by
  intro level other rest rest' _ _ hscalar _ _ heq
  rw [h] at hscalar
  rw [nested_of_scalar? h, nested_of_scalar? hscalar.symm] at heq
  exact ⟨by rw [shown_of_scalar? h, shown_of_scalar? hscalar.symm], heq⟩

theorem list_ne_map {entries : List (String × Outline)}
    (hnested : ∀ item ∈ items, item.scalar? = none) (hne : entries ≠ [])
    (hkeys : ∀ entry ∈ entries, IsKey entry.1) (level : Int) (rest rest' : List String) :
    (list items).nested level ++ rest ≠ (map entries).nested level ++ rest' := by
  intro heq
  obtain ⟨entry, entries, rfl⟩ := List.exists_cons_of_ne_nil hne
  rw [nested_map hne] at heq
  cases items with
  | nil =>
    have hempty : "" = margin level ++ entryHead entry := (List.cons.inj heq).1
    exact margin_append_ne_empty (flush_entryHead (hkeys _ List.mem_cons_self)) level hempty.symm
  | cons item items =>
    rw [nested_list_cons hnested] at heq
    have hhead : margin level ++ "-" = margin level ++ entryHead entry := (List.cons.inj heq).1
    exact item_ne_entryHead entry (String.append_right_inj _ |>.1 hhead)

theorem known_list (hnested : ∀ item ∈ items, item.scalar? = none)
    (h : ∀ item ∈ items, Known item) : Known (.list items) := by
  intro level other rest rest' hlevel hother hscalar hrest hrest' heq
  cases hother with
  | scalar written => exact absurd (hscalar.trans written) (by simp [scalar?])
  | map hne hkeys => exact absurd heq (list_ne_map hnested hne hkeys level _ _)
  | @list others hnested' hlegible =>
    -- An empty list is an empty line, and no other list begins with one.
    have hempty (item : Outline) (items : List Outline) (rest rest' : List String) :
        "" :: rest ≠ blocks level (fun _ => "-") (nested (level + 1)) (item :: items) ++ rest' :=
      fun heq => margin_append_ne_empty flush_item level (List.cons.inj heq).1.symm
    cases items with
    | nil =>
      cases others with
      | nil => exact ⟨rfl, (List.cons.inj heq).2⟩
      | cons other others =>
        rw [nested_list_cons hnested'] at heq
        exact absurd heq (hempty _ _ _ _)
    | cons item items =>
      rw [nested_list_cons hnested] at heq
      cases others with
      | nil => exact absurd heq.symm (hempty _ _ _ _)
      | cons other others =>
        rw [nested_list_cons hnested'] at heq
        obtain ⟨hshown, hend⟩ := blocks_inj shown hlevel (fun _ _ => flush_item)
          (fun _ _ => flush_item) (fun a ha b hb rest rest' hrest hrest' _ hbehind =>
            h a ha (by omega) (hlegible b hb) ((hnested a ha).trans (hnested' b hb).symm)
              hrest hrest' hbehind) hrest hrest' heq
        exact ⟨by rw [shown_list, shown_list, hshown], hend⟩

theorem known_map {entries : List (String × Outline)} (hne : entries ≠ [])
    (hkeys : ∀ entry ∈ entries, IsKey entry.1) (h : ∀ entry ∈ entries, Known entry.2) :
    Known (.map entries) := by
  intro level other rest rest' hlevel hother hscalar hrest hrest' heq
  cases hother with
  | scalar written => exact absurd (hscalar.trans written) (by simp [scalar?])
  | list hnested' => exact absurd heq.symm (list_ne_map hnested' hne hkeys level _ _)
  | map hne' hkeys' hlegible =>
    rw [nested_map hne, nested_map hne'] at heq
    obtain ⟨hshown, hend⟩ := blocks_inj shownEntry hlevel
      (fun a ha => flush_entryHead (hkeys a ha)) (fun b hb => flush_entryHead (hkeys' b hb))
      (fun a ha b hb rest rest' hrest hrest' hhead hbehind => by
        obtain ⟨hkey, hvalue⟩ := entryHead_inj (hkeys a ha) (hkeys' b hb) hhead
        obtain ⟨hshown, hend⟩ := h a ha (by omega) (hlegible b hb) hvalue hrest hrest' hbehind
        exact ⟨by rw [shownEntry, shownEntry, hkey, hshown], hend⟩) hrest hrest' heq
    exact ⟨by rw [shown_map, shown_map, hshown], hend⟩

theorem Legible.known {outline : Outline} (h : Legible outline) : Known outline := by
  induction h with
  | scalar written => exact known_scalar written
  | list hnested _ ih => exact known_list hnested ih
  | map hne hkeys _ ih => exact known_map hne hkeys ih

theorem IsKey.inLine (h : IsKey key) : InLine key := fun hmem => h.2 '\n' hmem (by decide)

theorem Legible.inLine_scalar {outline : Outline} (h : Legible outline)
    (hscalar : outline.scalar? = some content) : InLine content := by
  cases h with
  | scalar written inLine =>
    obtain rfl : content = _ := Option.some.inj (hscalar.symm.trans written)
    exact inLine
  | list | map => exact nomatch hscalar

theorem inLine_entryHead {entry : String × Outline} (hkey : IsKey entry.1)
    (hvalue : Legible entry.2) : InLine (entryHead entry) := by
  unfold entryHead
  split
  next content hcontent =>
    exact Text.inLine_append.2 ⟨Text.inLine_append.2 ⟨hkey.inLine, by decide⟩,
      hvalue.inLine_scalar hcontent⟩
  next => exact Text.inLine_append.2 ⟨hkey.inLine, by decide⟩

theorem Legible.inLine_nested {outline : Outline} (h : Legible outline) (level : Int) :
    ∀ line ∈ outline.nested level, InLine line := by
  induction h generalizing level with
  | scalar written =>
    rw [nested_of_scalar? written]
    exact List.forall_mem_nil _
  | @list items hnested _ ih =>
    cases items with
    | nil => exact List.forall_mem_singleton.2 (by decide)
    | cons item items =>
      rw [nested_list_cons hnested]
      exact inLine_blocks (fun _ _ => by decide) fun item hitem => ih item hitem (level + 1)
  | map hne hkeys hlegible ih =>
    rw [nested_map hne]
    exact inLine_blocks
      (fun entry hentry => inLine_entryHead (hkeys entry hentry) (hlegible entry hentry))
      fun entry hentry => ih entry hentry (level + 1)

theorem nested_ne_nil {outline : Outline} (h : Legible outline) (hnone : outline.scalar? = none)
    (level : Int) : outline.nested level ≠ [] := by
  cases h with
  | scalar written => exact absurd (hnone.symm.trans written) (by simp)
  | @list items hnested =>
    cases items with
    | nil => exact List.cons_ne_nil _ _
    | cons item items =>
      rw [nested_list_cons hnested]
      exact List.cons_ne_nil _ _
  | @map entries hne =>
    rw [nested_map hne]
    cases entries with
    | nil => exact absurd rfl hne
    | cons => exact List.cons_ne_nil _ _

theorem shown_eq_of_indented (h : Legible one) (h' : Legible other) (hnone : one.scalar? = none)
    (hnone' : other.scalar? = none) (hlevel : 0 ≤ level)
    (heq : one.indented level = other.indented level) : one.shown = other.shown := by
  have hnested {outline : Outline} (hnone : outline.scalar? = none) :
      outline.indented level = "\n".intercalate (outline.nested level) := by
    rw [indented, nested, hnone]
  rw [hnested hnone, hnested hnone'] at heq
  have hlines := Text.intercalate_newline_inj (nested_ne_nil h hnone level)
    (nested_ne_nil h' hnone' level) (h.inLine_nested level) (h'.inLine_nested level) heq
  have hnil : Closes level [] := fun line hline => nomatch hline
  exact (h.known hlevel h' (hnone.trans hnone'.symm) hnil hnil (congrArg (· ++ []) hlines)).1

end Outline

end Rech
