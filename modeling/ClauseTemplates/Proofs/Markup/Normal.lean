import ClauseTemplates.Proofs.Document.Rows
import ClauseTemplates.Proofs.Markup.Inlines

namespace ClauseTemplates

namespace Text

theorem mem_escaped {c : Char} : ∀ {cs : List Char}, c ∈ escaped cs → c ∈ cs ∨ c = '\\'
  | [], h => Or.inl h
  | d :: cs, h => by
    rw [escaped] at h
    have htail (h : c ∈ d :: escaped cs) : c ∈ d :: cs ∨ c = '\\' := by
      rcases List.mem_cons.mp h with rfl | h
      · exact Or.inl List.mem_cons_self
      · exact (mem_escaped h).imp_left fun h => List.mem_cons_of_mem d h
    split at h
    · rcases List.mem_cons.mp h with rfl | h
      · exact Or.inr rfl
      · exact htail h
    · exact htail h

theorem getLast?_trimEnd (cs : List Char) : ∀ c ∈ (trimEnd cs).getLast?, isBlank c = false := by
  intro c hc
  rw [trimEnd, List.getLast?_reverse] at hc
  have hnot := List.head?_dropWhile_not isBlank cs.reverse
  rw [hc] at hnot
  simpa using hnot

end Text

/-- A line of a paragraph: it is not indented, and no other block begins there. -/
@[mk_iff]
structure Markup.GoesOn (line : List Char) : Prop where
  blank : Text.allBlank line = false
  start : ∀ c ∈ line.head?, Text.isBlank c = false
  apart : Markup.startsBlock line = false

namespace Doc

open Markdown

@[mk_iff]
structure NormalCode (info : Option String) (text : String) : Prop where
  info : ∀ s ∈ info, s ≠ "" ∧ '\n' ∉ s.toList ∧ Text.trim s.toList = s.toList
  returns : '\r' ∉ text.toList
  last : text.toList.getLast? ≠ some '\n'
  fence : ∀ line ∈ Text.lines text.toList, Text.trimEnd line ≠ Markdown.fence

@[mk_iff]
structure NormalParagraph (children : List Doc) : Prop where
  runs : Runs children
  returns : '\r' ∉ plainAll children
  lines : ∀ line ∈ (inlines '-' [] children).splitOn '\n', Markup.GoesOn line

/-- A heading is a single line. -/
@[mk_iff]
structure NormalHeading (level : UInt8) (children : List Doc) : Prop where
  level : 1 ≤ level.toNat ∧ level.toNat ≤ 6
  runs : Runs children
  breaks : '\n' ∉ plainAll children
  returns : '\r' ∉ plainAll children

mutual

/-- A block that markup can be read as. -/
def Normal : Doc → Prop
  | .leaf (.codeBlock info text) => NormalCode info text
  | .leaf .thematicBreak => True
  | .node .paragraph children => NormalParagraph children
  | .node (.heading level) children => NormalHeading level children
  | .node .blockQuote children => NormalAll children
  | .node (.list kind start) items =>
    items ≠ [] ∧ (kind = .bullet → start = 1) ∧ NormalItems items
  | _ => False

def NormalAll : List Doc → Prop
  | [] => True
  | doc :: rest => doc.Normal ∧ NormalAll rest

def NormalItem : Doc → Prop
  | .node .item children => NormalAll children
  | _ => False

def NormalItems : List Doc → Prop
  | [] => True
  | doc :: rest => doc.NormalItem ∧ NormalItems rest

end

/-! ### Which blocks are normal can be computed -/

instance (line : List Char) : Decidable (Markup.GoesOn line) :=
  -- Only the first character is tried, not every character there is.
  have : Decidable (∀ c ∈ line.head?, Text.isBlank c = false) := line.head?.decidableForallMem
  decidable_of_iff' _ (Markup.goesOn_iff line)

def decidableRuns : (docs : List Doc) → Decidable (Runs docs)
  | [] => .isTrue trivial
  | .leaf (.text _) :: rest =>
    have := decidableRuns rest
    inferInstanceAs (Decidable (_ ∧ _ ∧ _ ∧ _))
  | .leaf (.code _) :: rest =>
    have := decidableRuns rest
    inferInstanceAs (Decidable (_ ∧ _ ∧ _))
  | .leaf .softbreak :: rest => decidableRuns rest
  | .leaf .linebreak :: rest => decidableRuns rest
  | .leaf (.codeBlock _ _) :: _ => .isFalse id
  | .leaf .thematicBreak :: _ => .isFalse id
  | .leaf (.fragment _) :: _ => .isFalse id
  | .leaf (.formula _ _) :: _ => .isFalse id
  | .node _ _ :: _ => .isFalse id

instance (docs : List Doc) : Decidable (Runs docs) := decidableRuns docs

instance (info : Option String) (text : String) : Decidable (NormalCode info text) :=
  decidable_of_iff' _ (normalCode_iff info text)

instance (children : List Doc) : Decidable (NormalParagraph children) :=
  decidable_of_iff' _ (normalParagraph_iff children)

instance (level : UInt8) (children : List Doc) : Decidable (NormalHeading level children) :=
  decidable_of_iff' _ (normalHeading_iff level children)

mutual

def decidableNormal : (doc : Doc) → Decidable doc.Normal
  | .leaf (.codeBlock info text) => inferInstanceAs (Decidable (NormalCode info text))
  | .leaf .thematicBreak => .isTrue trivial
  | .node .paragraph children => inferInstanceAs (Decidable (NormalParagraph children))
  | .node (.heading level) children => inferInstanceAs (Decidable (NormalHeading level children))
  | .node .blockQuote children => decidableNormalAll children
  | .node (.list kind start) items =>
    have := decidableNormalItems items
    have : Decidable (items ≠ []) := decidable_of_iff (items.isEmpty = false) (by simp)
    inferInstanceAs (Decidable (items ≠ [] ∧ (kind = .bullet → start = 1) ∧ NormalItems items))
  | .leaf (.text _) => .isFalse id
  | .leaf (.code _) => .isFalse id
  | .leaf .softbreak => .isFalse id
  | .leaf .linebreak => .isFalse id
  | .leaf (.fragment _) => .isFalse id
  | .leaf (.formula _ _) => .isFalse id
  | .node (.document _) _ => .isFalse id
  | .node .item _ => .isFalse id
  | .node (.clause _ _ _) _ => .isFalse id
  | .node .emph _ => .isFalse id
  | .node .strong _ => .isFalse id

def decidableNormalAll : (docs : List Doc) → Decidable (NormalAll docs)
  | [] => .isTrue trivial
  | doc :: rest =>
    have := decidableNormal doc
    have := decidableNormalAll rest
    inferInstanceAs (Decidable (_ ∧ _))

def decidableNormalItem : (doc : Doc) → Decidable doc.NormalItem
  | .node .item children => decidableNormalAll children
  | .leaf _ => .isFalse id
  | .node (.document _) _ => .isFalse id
  | .node .paragraph _ => .isFalse id
  | .node (.heading _) _ => .isFalse id
  | .node .blockQuote _ => .isFalse id
  | .node (.list _ _) _ => .isFalse id
  | .node (.clause _ _ _) _ => .isFalse id
  | .node .emph _ => .isFalse id
  | .node .strong _ => .isFalse id

def decidableNormalItems : (items : List Doc) → Decidable (NormalItems items)
  | [] => .isTrue trivial
  | doc :: rest =>
    have := decidableNormalItem doc
    have := decidableNormalItems rest
    inferInstanceAs (Decidable (_ ∧ _))

end

instance (docs : List Doc) : Decidable (NormalAll docs) := decidableNormalAll docs

end Doc

namespace Markdown

open Row

/-- The lines of a text. -/
def Row.ofText (text : List Char) : List Row := (text.splitOn '\n').map some

mutual

/-- The lines of a block. -/
def rows : Doc → List Row
  | .leaf (.codeBlock info text) =>
    some (fence ++ (info.getD "").toList) :: (Text.lines text.toList).map some ++ [some fence]
  | .leaf .thematicBreak => [some thematicBreak]
  | .node .paragraph children => ofText (inlines '-' [] children)
  | .node (.heading level) children => [some (headingMark level.toNat ++ inlines '-' [] children)]
  | .node .blockQuote children => marked quoteMark quoted (rowsAll children)
  | .node (.list kind start) children => itemRows kind start.toNat children
  | .node .item children => rowsAll children
  | _ => []

def rowsAll : List Doc → List Row
  | [] => []
  | doc :: rest => rows doc ++ laterRows rest

def laterRows : List Doc → List Row
  | [] => []
  | doc :: rest => none :: rows doc ++ laterRows rest

def itemRows (kind : ListKind) (number : Nat) : List Doc → List Row
  | [] => []
  | doc :: rest =>
    marked (itemMark '-' kind number) (indented kind) (rows doc) ++ itemRows kind (number + 1) rest

end

/-! ### What the lines begin with -/

theorem digitChars_eq_cons (number : Nat) :
    ∃ c rest, Decimal.digitChars number = c :: rest ∧ ∀ d ∈ c :: rest, d.isDigit = true := by
  obtain ⟨c, rest, hdigits⟩ :=
    List.exists_cons_of_ne_nil (Nat.toDigits_ne_nil (n := number) (b := 10))
  refine ⟨c, rest, hdigits, ?_⟩
  intro d hd
  exact Nat.isDigit_of_mem_toDigits (by decide) (by decide) (hdigits ▸ hd)

theorem head_itemMark (kind : ListKind) (number : Nat) :
    ∃ c ∈ (itemMark '-' kind number).head?, Text.isBlank c = false := by
  cases kind with
  | bullet => exact ⟨'-', rfl, by decide⟩
  | ordered =>
    obtain ⟨c, rest, hdigits, hall⟩ := digitChars_eq_cons number
    refine ⟨c, ?_, Text.isBlank_digit (hall c List.mem_cons_self)⟩
    rw [itemMark, orderedMark, hdigits]
    rfl

theorem opens_itemRows (kind : ListKind) (number : Nat) {items : List Doc} (hne : items ≠ []) :
    Opens (itemRows kind number items) := by
  obtain ⟨doc, rest, rfl⟩ := List.exists_cons_of_ne_nil hne
  rw [itemRows]
  exact (opens_marked (head_itemMark kind number) _ _).append _

theorem opens_ofText {text : List Char} (h : ∀ line ∈ text.splitOn '\n', Markup.GoesOn line) :
    Opens (ofText text) := by
  obtain ⟨first, rest, hparts⟩ := List.exists_cons_of_ne_nil (List.splitOn_ne_nil '\n' text)
  rw [ofText, hparts]
  have hfirst := h first (hparts ▸ List.mem_cons_self)
  cases first with
  | nil => cases hfirst.blank
  | cons c line => exact ⟨c, line, rest.map some, rfl, hfirst.start c rfl⟩

theorem opens_rows : ∀ {doc : Doc}, doc.Normal → Opens (rows doc)
  | .leaf (.codeBlock info text), _ => by
    rw [rows]
    exact ⟨'\x60', _, _, rfl, by decide⟩
  | .leaf .thematicBreak, _ => by
    rw [rows]
    exact ⟨'-', _, _, rfl, by decide⟩
  | .node .paragraph children, h => by
    rw [Doc.Normal] at h
    rw [rows]
    exact opens_ofText h.lines
  | .node (.heading level) children, h => by
    rw [Doc.Normal] at h
    obtain ⟨n, hn⟩ : ∃ n, level.toNat = n + 1 := ⟨level.toNat - 1, by have := h.level; omega⟩
    rw [rows, hn, headingMark, List.replicate_succ]
    exact ⟨'#', _, _, rfl, by decide⟩
  | .node .blockQuote children, _ => by
    rw [rows]
    exact opens_marked ⟨'>', rfl, by decide⟩ _ _
  | .node (.list kind start) items, h => by
    rw [Doc.Normal] at h
    rw [rows]
    exact opens_itemRows kind start.toNat h.1

/-! ### What is written -/

theorem written_ofText_newline (margin text : List Char) :
    written margin (ofText ('\n' :: text)) = newline margin ++ written margin (ofText text) := by
  have hsplit : ofText ('\n' :: text) = some [] :: ofText text := by
    rw [ofText, List.splitOn_cons_eq_if_modifyHead]
    rfl
  obtain ⟨first, rest, hparts⟩ := List.exists_cons_of_ne_nil (List.splitOn_ne_nil '\n' text)
  rw [hsplit]
  change continued margin (ofText text) = _
  rw [ofText, hparts, List.map_cons, continued_some]

theorem written_ofText_append (margin : List Char) {front : List Char} (h : '\n' ∉ front)
    (text : List Char) : written margin (ofText (front ++ text)) = front ++ written margin (ofText text) := by
  induction front with
  | nil => rfl
  | cons c front ih =>
    rw [List.mem_cons, not_or] at h
    obtain ⟨hc, hfront⟩ := h
    have hc : (c == '\n') = false := by simpa using Ne.symm hc
    obtain ⟨first, rest, hparts⟩ :=
      List.exists_cons_of_ne_nil (List.splitOn_ne_nil '\n' (front ++ text))
    have hsplit : ofText (c :: front ++ text) = some (c :: first) :: rest.map some := by
      rw [ofText, List.cons_append, List.splitOn_cons_eq_if_modifyHead, hc, hparts]
      rfl
    rw [hsplit, List.cons_append, ← ih hfront, ofText, hparts]
    rfl

/-- Inlines are written at a margin as their lines. -/
theorem written_inlines (margin : List Char) : ∀ {docs : List Doc}, Doc.Runs docs →
    inlines '-' margin docs = written margin (ofText (inlines '-' [] docs))
  | [], _ => rfl
  | .leaf (.text s) :: rest, ⟨_, hline, _, hrest⟩ => by
    have hescaped : '\n' ∉ Text.escaped s.toList := by
      intro h
      rcases Text.mem_escaped h with h | h
      · exact hline h
      · cases h
    simp only [inlines, rendered, leafText]
    rw [written_ofText_append margin hescaped, ← written_inlines margin hrest]
  | .leaf (.code s) :: rest, ⟨_, hline, hrest⟩ => by
    have hcode : '\n' ∉ '\x60' :: s.toList ++ ['\x60'] := by simpa using hline
    simp only [inlines, rendered, leafText]
    rw [written_ofText_append margin hcode, ← written_inlines margin hrest]
  | .leaf .softbreak :: rest, h => by
    have hrest : Doc.Runs rest := h
    have hbreak := written_ofText_newline margin (inlines '-' [] rest)
    simp only [inlines, rendered, leafText]
    rw [written_inlines margin hrest]
    exact hbreak.symm
  | .leaf .linebreak :: rest, h => by
    have hrest : Doc.Runs rest := h
    have hmark : written margin (ofText (['\\'] ++ '\n' :: inlines '-' [] rest)) =
        ['\\'] ++ (newline margin ++ written margin (ofText (inlines '-' [] rest))) := by
      rw [written_ofText_append margin (by decide), written_ofText_newline]
    simp only [inlines, rendered, leafText]
    rw [written_inlines margin hrest]
    exact hmark.symm

theorem mem_inlines {c : Char} : ∀ {docs : List Doc}, Doc.Runs docs → c ∈ inlines '-' [] docs →
    c ∈ Doc.plainAll docs ∨ c = '\\' ∨ c = '\x60'
  | .leaf (.text s) :: rest, ⟨_, _, _, hrest⟩, h => by
    simp only [inlines, rendered, leafText] at h
    rcases List.mem_append.mp h with h | h
    · rcases Text.mem_escaped h with h | h
      · exact Or.inl (List.mem_append_left _ h)
      · exact Or.inr (Or.inl h)
    · exact (mem_inlines hrest h).imp_left (List.mem_append_right _)
  | .leaf (.code s) :: rest, ⟨_, _, hrest⟩, h => by
    simp only [inlines, rendered, leafText] at h
    rcases List.mem_append.mp h with h | h
    · have h : c = '\x60' ∨ c ∈ s.toList := by
        simpa [or_comm, or_left_comm] using h
      exact h.symm.imp (List.mem_append_left _) Or.inr
    · exact (mem_inlines hrest h).imp_left (List.mem_append_right _)
  | .leaf .softbreak :: rest, hrest, h => by
    have hrest : Doc.Runs rest := hrest
    rcases List.mem_cons.mp h with h | h
    · exact Or.inl (h ▸ List.mem_cons_self)
    · exact (mem_inlines hrest h).imp_left (List.mem_cons_of_mem _)
  | .leaf .linebreak :: rest, hrest, h => by
    have hrest : Doc.Runs rest := hrest
    rcases List.mem_cons.mp h with h | h
    · exact Or.inr (Or.inl h)
    · rcases List.mem_cons.mp h with h | h
      · exact Or.inl (h ▸ List.mem_cons_self)
      · exact (mem_inlines hrest h).imp_left (List.mem_cons_of_mem _)

theorem not_mem_inlines {c : Char} {docs : List Doc} (h : Doc.Runs docs) (hplain : c ∉ Doc.plainAll docs)
    (hback : c ≠ '\\') (htick : c ≠ '\x60') : c ∉ inlines '-' [] docs := by
  intro hc
  rcases mem_inlines h hc with hc | hc | hc
  · exact hplain hc
  · exact hback hc
  · exact htick hc

theorem written_codeBlock (margin : List Char) (info : Option String) (text : String) :
    codeBlock info text margin = written margin (rows (.leaf (.codeBlock info text))) := by
  simp [codeBlock, rows, written, continued, newline, under, List.flatMap_map]

mutual

/-- A block is written as its lines. -/
theorem rendered_rows (margin : List Char) : ∀ {doc : Doc}, doc.Normal →
    rendered '-' margin doc = written margin (rows doc)
  | .leaf (.codeBlock info text), _ => by
    rw [rendered, leafText, written_codeBlock]
  | .leaf .thematicBreak, _ => by
    rw [rendered, rows]
    rfl
  | .node .paragraph children, h => by
    rw [Doc.Normal] at h
    rw [rendered, rows, written_inlines margin h.runs]
  | .node (.heading level) children, h => by
    rw [Doc.Normal] at h
    have hline := not_mem_inlines h.runs h.breaks (by decide) (by decide)
    rw [rendered, rows, written_inlines margin h.runs, ofText, List.splitOn_eq_singleton hline]
    simp [written, continued]
  | .node .blockQuote children, h => by
    rw [Doc.Normal] at h
    rw [rendered, rows, written_marked (under_quoted margin), blocks_rows _ h]
  | .node (.list kind start) items, h => by
    rw [Doc.Normal] at h
    rw [rendered, rows, items_rows margin kind start.toNat h.2.2]

theorem blocks_rows (margin : List Char) : ∀ {docs : List Doc}, Doc.NormalAll docs →
    blocks '-' margin docs = written margin (rowsAll docs)
  | [], _ => rfl
  | doc :: rest, ⟨hdoc, hrest⟩ => by
    rw [blocks, rowsAll, written_append (opens_rows hdoc).ne_nil, rendered_rows margin hdoc,
      laterBlocks_rows margin hrest]

theorem laterBlocks_rows (margin : List Char) : ∀ {docs : List Doc}, Doc.NormalAll docs →
    laterBlocks '-' margin docs = continued margin (laterRows docs)
  | [], _ => rfl
  | doc :: rest, ⟨hdoc, hrest⟩ => by
    obtain ⟨c, line, more, hrows, _⟩ := opens_rows hdoc
    have hgap : continued margin (none :: rows doc) = blockSeparator margin ++ written margin (rows doc) := by
      rw [hrows]
      change '\n' :: Text.trimEnd margin ++ continued margin (some (c :: line) :: more) = _
      rw [continued_some]
      simp [blockSeparator, newline]
    rw [laterBlocks, laterRows, continued_append, hgap, rendered_rows margin hdoc,
      laterBlocks_rows margin hrest]

theorem items_rows (margin : List Char) (kind : ListKind) (number : Nat) : ∀ {items : List Doc},
    Doc.NormalItems items → Markdown.items '-' margin (margin ++ itemIndent kind) kind number items =
      written margin (itemRows kind number items)
  | [], _ => rfl
  | doc :: rest, ⟨hdoc, hrest⟩ => by
    have hmarked := (opens_marked (head_itemMark kind number) (indented kind) (rows doc)).ne_nil
    rw [Markdown.items, itemRows, written_append hmarked, written_marked (under_indented margin kind), item_rows _ hdoc,
      laterItems_rows margin kind (number + 1) hrest]

theorem laterItems_rows (margin : List Char) (kind : ListKind) (number : Nat) : ∀ {items : List Doc},
    Doc.NormalItems items → laterItems '-' margin (margin ++ itemIndent kind) kind number items =
      continued margin (itemRows kind number items)
  | [], _ => rfl
  | doc :: rest, ⟨hdoc, hrest⟩ => by
    rw [laterItems, itemRows, continued_append, marked, continued_some, ← marked,
      written_marked (under_indented margin kind), item_rows _ hdoc,
      laterItems_rows margin kind (number + 1) hrest, ← List.append_assoc (newline margin)]

theorem item_rows (margin : List Char) : ∀ {doc : Doc}, doc.NormalItem →
    rendered '-' margin doc = written margin (rows doc)
  | .node .item children, h => by
    rw [Doc.NormalItem] at h
    rw [rendered, rows, blocks_rows margin h]

end

/-! ### What is read again -/

theorem clean_of_not_mem {line : List Char} (hline : '\n' ∉ line) (hreturn : '\r' ∉ line) : Clean line :=
  ⟨hline, fun hlast => hreturn (List.mem_of_getLast? hlast)⟩

theorem legible_map_some {lines : List (List Char)} (hclean : ∀ line ∈ lines, Clean line)
    (hlast : lines.getLast? ≠ some []) : Legible (lines.map some) := by
  refine ⟨spaced_map_some id lines, ?_, ?_⟩
  · intro row hrow
    obtain ⟨line, hline, rfl⟩ := List.mem_map.mp hrow
    exact hclean line hline
  · intro row hrow
    rw [List.getLast?_map] at hrow
    obtain ⟨line, hline, rfl⟩ := Option.map_eq_some_iff.mp hrow
    rintro hempty
    have hempty : line = [] := hempty
    exact hlast (hempty ▸ hline)

theorem clean_of_mem_splitOn {line text : List Char} (hreturn : '\r' ∉ text)
    (h : line ∈ text.splitOn '\n') : Clean line := by
  apply clean_of_not_mem
  · intro hc
    exact (Text.mem_of_mem_splitOn h hc).2 rfl
  · intro hc
    exact hreturn (Text.mem_of_mem_splitOn h hc).1

theorem clean_itemMark (kind : ListKind) (number : Nat) : Clean (itemMark '-' kind number) := by
  cases kind with
  | bullet =>
    rw [itemMark]
    exact ⟨by decide, by decide⟩
  | ordered =>
    obtain ⟨c, rest, hdigits, hall⟩ := digitChars_eq_cons number
    rw [itemMark, orderedMark, hdigits]
    apply Clean.append
    · apply clean_of_not_mem
      · intro hc
        cases hall _ hc
      · intro hc
        cases hall _ hc
    · exact ⟨by decide, by decide⟩

theorem legible_codeBlock {info : Option String} {text : String} (h : Doc.NormalCode info text) :
    Legible (rows (.leaf (.codeBlock info text))) := by
  have hfence : Clean fence := ⟨by decide, by decide⟩
  have hinfo : Clean (info.getD "").toList := by
    cases info with
    | none => exact clean_nil
    | some s =>
      obtain ⟨_, hline, htrim⟩ := h.info s rfl
      refine ⟨hline, ?_⟩
      intro hlast
      change s.toList.getLast? = _ at hlast
      rw [← htrim] at hlast
      cases Text.getLast?_trimEnd _ _ hlast
  have hlines : ∀ line ∈ Text.lines text.toList, Clean line := by
    intro line hline
    by_cases hne : text.toList = []
    · rw [hne] at hline
      cases hline
    · rw [Text.lines_of_no_return hne h.returns h.last] at hline
      exact clean_of_mem_splitOn h.returns hline
  have hrows : rows (.leaf (.codeBlock info text)) =
      ((fence ++ (info.getD "").toList) :: Text.lines text.toList ++ [fence]).map some := by
    rw [rows, List.map_append]
    rfl
  rw [hrows]
  apply legible_map_some
  · intro line hline
    rcases List.mem_append.mp hline with hline | hline
    · rcases List.mem_cons.mp hline with rfl | hline
      · exact hfence.append hinfo
      · exact hlines line hline
    · rw [List.mem_singleton.mp hline]
      exact hfence
  · rw [List.getLast?_concat]
    nofun

theorem legible_ofText {text : List Char} (hreturn : '\r' ∉ text)
    (h : ∀ line ∈ text.splitOn '\n', Markup.GoesOn line) : Legible (ofText text) := by
  refine legible_map_some (fun line hline => clean_of_mem_splitOn hreturn hline) ?_
  intro hlast
  cases (h [] (List.mem_of_getLast? hlast)).blank

mutual

/-- The lines of a block are found again. -/
theorem legible_rows : ∀ {doc : Doc}, doc.Normal → Legible (rows doc)
  | .leaf (.codeBlock info text), h => by
    rw [Doc.Normal] at h
    exact legible_codeBlock h
  | .leaf .thematicBreak, _ => by
    rw [rows]
    exact .single ⟨by decide, by decide⟩ (List.cons_ne_nil _ _)
  | .node .paragraph children, h => by
    rw [Doc.Normal] at h
    rw [rows]
    exact legible_ofText (not_mem_inlines h.runs h.returns (by decide) (by decide)) h.lines
  | .node (.heading level) children, h => by
    rw [Doc.Normal] at h
    have hline := not_mem_inlines h.runs h.breaks (by decide) (by decide)
    have hreturn := not_mem_inlines h.runs h.returns (by decide) (by decide)
    have hmark : Clean (headingMark level.toNat) := by
      apply clean_of_not_mem <;> simp [headingMark, List.mem_replicate]
    rw [rows]
    exact .single (hmark.append (clean_of_not_mem hline hreturn)) (by simp [headingMark])
  | .node .blockQuote children, h => by
    rw [Doc.Normal] at h
    rw [rows]
    exact (legible_rowsAll h).quoted
  | .node (.list kind start) items, h => by
    rw [Doc.Normal] at h
    rw [rows]
    exact legible_itemRows kind start.toNat h.2.2

theorem legible_rowsAll : ∀ {docs : List Doc}, Doc.NormalAll docs → Legible (rowsAll docs)
  | [], _ => .nil
  | doc :: rest, ⟨hdoc, hrest⟩ => by
    rw [rowsAll]
    exact (legible_rows hdoc).append (legible_laterRows hrest)

theorem legible_laterRows : ∀ {docs : List Doc}, Doc.NormalAll docs → Legible (laterRows docs)
  | [], _ => .nil
  | doc :: rest, ⟨hdoc, hrest⟩ => by
    rw [laterRows]
    exact ((legible_rows hdoc).gap (opens_rows hdoc)).append (legible_laterRows hrest)

theorem legible_itemRows (kind : ListKind) (number : Nat) : ∀ {items : List Doc},
    Doc.NormalItems items → Legible (itemRows kind number items)
  | [], _ => .nil
  | doc :: rest, ⟨hdoc, hrest⟩ => by
    have hmark : itemMark '-' kind number ≠ [] := by
      intro hnil
      obtain ⟨c, hc, _⟩ := head_itemMark kind number
      rw [hnil] at hc
      cases hc
    rw [itemRows]
    exact ((legible_item hdoc).item (clean_itemMark kind number) hmark kind).append
      (legible_itemRows kind (number + 1) hrest)

theorem legible_item : ∀ {doc : Doc}, doc.NormalItem → Legible (rows doc)
  | .node .item children, h => by
    rw [Doc.NormalItem] at h
    rw [rows]
    exact legible_rowsAll h

end

/-- The lines of a rendered document. -/
theorem lines_render {docs : List Doc} (h : Doc.NormalAll docs) :
    Text.lines (render '-' docs).toList = (rowsAll docs).map shown := by
  rw [render, String.toList_ofList, blocks_rows [] h, (legible_rowsAll h).lines_written]

end Markdown

end ClauseTemplates
