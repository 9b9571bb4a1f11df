import ClauseTemplates.Markup.Template
import ClauseTemplates.Proofs.Markup.Splitting
import ClauseTemplates.Settings

namespace ClauseTemplates

namespace Markup

open Markdown Markdown.Row

/-! ### Names -/

mutual

/-- Documents hold nothing to be named. -/
theorem named_ofDoc (counts : Counts) : ∀ doc : Doc, named counts (Node.ofDoc doc) = (Node.ofDoc doc, counts)
  | .leaf l => by
    rw [Node.ofDoc, named]
  | .node frame children => by
    rw [Node.ofDoc, named, namedAll_ofDocs counts children]

theorem namedAll_ofDocs (counts : Counts) : ∀ docs : List Doc,
    namedAll counts (Node.ofDocs docs) = (Node.ofDocs docs, counts)
  | [] => rfl
  | doc :: rest => by
    rw [Node.ofDocs, namedAll, named_ofDoc counts doc]
    simp only [namedAll_ofDocs counts rest]

end

/-! ### What stands behind a block -/

theorem shows_opens {lines : List Line} {rows : List Row} (h : Shows lines rows) (hopens : Opens rows) :
    ∃ line rest, lines = line :: rest ∧ Unindented line := by
  obtain ⟨c, text, more, rfl, hc⟩ := hopens
  obtain ⟨line, rest, rfl, htext, _⟩ := shows_cons.mp h
  refine ⟨line, rest, rfl, c, ?_, hc⟩
  rw [htext]
  rfl

theorem opens_rowsAll {docs : List Doc} (h : Doc.NormalAll docs) (hne : docs ≠ []) : Opens (rowsAll docs) := by
  obtain ⟨doc, rest, rfl⟩ := List.exists_cons_of_ne_nil hne
  rw [rowsAll]
  exact (opens_rows h.1).append _

theorem ends_laterRows {docs : List Doc} (h : Doc.NormalAll docs) {lines : List Line}
    (hlines : Shows lines (laterRows docs)) : Ends lines := by
  cases docs with
  | nil =>
    rw [shows_nil.mp hlines]
    trivial
  | cons doc rest =>
    obtain ⟨gap, more, rfl, hgap, hmore⟩ := shows_cons.mp hlines
    obtain ⟨next, _, rfl, hnext⟩ := shows_opens hmore ((opens_rows h.1).append _)
    exact ⟨hgap, next, rfl, hnext⟩

/-! ### What is inside a quote or an item -/

theorem readBlocks_nil (fuel : Nat) : readBlocks fuel [] = .ok [] := by
  cases fuel <;> rfl

theorem readBlocks_blank {line : Line} (h : line.isBlank = true) (fuel : Nat) (rest : List Line) :
    readBlocks (fuel + 1) (line :: rest) = readBlocks fuel rest := by
  rw [readBlocks, if_pos h]

/-- Blocks are read from their lines, as long as there is fuel left. -/
def ReadsBack (docs : List Doc) : Prop :=
  ∀ fuel lines, Shows lines (rowsAll docs) → weight lines < fuel → readBlocks fuel lines = .ok (Node.ofDocs docs)

/-- Inside a quote or an item there is a line even if there is no block. -/
theorem ReadsBack.inside {docs : List Doc} (h : ReadsBack docs) (hnormal : Doc.NormalAll docs) (fuel : Nat)
    {lines : List Line} (hlines : Shows lines ((rowsAll docs).headD none :: (rowsAll docs).tail))
    (hfuel : weight lines < fuel) : readBlocks fuel lines = .ok (Node.ofDocs docs) := by
  by_cases hne : docs = []
  · subst hne
    obtain ⟨line, rest, rfl, htext, hrest⟩ := shows_cons.mp hlines
    rw [shows_nil.mp hrest]
    have hblank : line.isBlank = true := by
      rw [Line.isBlank, htext]
      rfl
    obtain ⟨fuel, rfl⟩ : ∃ n, fuel = n + 1 := ⟨fuel - 1, by omega⟩
    rw [readBlocks_blank hblank, readBlocks_nil]
    rfl
  · obtain ⟨row, rest, hrows⟩ := List.exists_cons_of_ne_nil (opens_rowsAll hnormal hne).ne_nil
    apply h fuel lines ?_ hfuel
    rw [hrows] at hlines ⊢
    exact hlines

theorem ReadsBack.later {docs : List Doc} (h : ReadsBack docs) (fuel : Nat) {lines : List Line}
    (hlines : Shows lines (laterRows docs)) (hfuel : weight lines < fuel) :
    readBlocks fuel lines = .ok (Node.ofDocs docs) := by
  cases docs with
  | nil =>
    rw [shows_nil.mp hlines, readBlocks_nil]
    rfl
  | cons doc rest =>
    obtain ⟨gap, more, rfl, hgap, hmore⟩ := shows_cons.mp hlines
    have hblank : gap.isBlank = true := by
      rw [Line.isBlank, hgap]
      rfl
    rw [weight_cons] at hfuel
    obtain ⟨fuel, rfl⟩ : ∃ n, fuel = n + 1 := ⟨fuel - 1, by omega⟩
    rw [readBlocks_blank hblank]
    exact h fuel more hmore (by omega)

theorem startOf_itemMark {kind : ListKind} {start : UInt32} (h : kind = .bullet → start = 1)
    (text : List Char) : startOf kind (itemMark '-' kind start.toNat ++ text) = start := by
  cases kind with
  | bullet => exact (h rfl).symm
  | ordered => exact itemNumber_orderedMark start text

theorem text_itemRows (kind : ListKind) (number : Nat) {items : List Doc} (hne : items ≠ []) {line : Line}
    {more : List Line} (hlines : Shows (line :: more) (itemRows kind number items)) :
    ∃ text, line.text = itemMark '-' kind number ++ text := by
  obtain ⟨doc, rest, rfl⟩ := List.exists_cons_of_ne_nil hne
  obtain ⟨_, _, ⟨⟩, htext, _⟩ := shows_cons.mp hlines
  exact ⟨_, htext⟩

/-- What stands behind an item is no longer inside it. -/
theorem splitItem_next (kind : ListKind) {number : Nat} {items : List Doc} {lines after : List Line}
    (hlines : Shows lines (itemRows kind number items)) (hafter : Ends after) :
    splitItem (itemIndent kind) (lines ++ after) = ([], lines ++ after) := by
  by_cases hne : items = []
  · subst hne
    rw [shows_nil.mp hlines]
    exact splitItem_ends kind hafter
  · obtain ⟨next, following, rfl, hunindented⟩ := shows_opens hlines (opens_itemRows kind number hne)
    exact splitItem_unindented kind hunindented _

/-- Without its mark the first line of an item weighs less. -/
theorem weight_item (kind : ListKind) (number : Nat) {line : Line} {text : List Char}
    (htext : line.text = itemMark '-' kind number ++ text) {item more : List Line}
    (h : weight item ≤ weight more) :
    weight (line.skip (itemMark '-' kind number).length :: item) < weight (line :: more) := by
  have hmark : 0 < (itemMark '-' kind number).length := by
    cases kind with
    | bullet => exact Nat.two_pos
    | ordered =>
      rw [itemMark, orderedMark, List.length_append]
      exact Nat.lt_of_lt_of_le Nat.two_pos (Nat.le_add_left _ _)
  have hline : line.text.length = (itemMark '-' kind number).length + text.length := by
    rw [htext, List.length_append]
  have hskip : (line.skip (itemMark '-' kind number).length).text.length =
      line.text.length - (itemMark '-' kind number).length := List.length_drop
  rw [weight_cons, weight_cons, hskip]
  omega

mutual

/-- A block is read from its lines, up to what stands behind it. -/
theorem readBlock_rows : ∀ {doc : Doc}, doc.Normal → ∀ (fuel : Nat) {line : Line} {more after : List Line},
    Shows (line :: more) (rows doc) → Ends after → weight (line :: more) ≤ fuel →
      readBlock (readBlocks fuel) line (more ++ after) = .ok (Node.ofDoc doc, after)
  | .leaf (.codeBlock info text), h, fuel, line, more, after, hlines, hafter, hfuel => by
    rw [Doc.Normal] at h
    rw [rows] at hlines
    obtain ⟨_, _, ⟨⟩, htext, hmore⟩ := shows_cons.mp hlines
    rw [readBlock_fence _ _ htext, readFence_rows h hmore]
    rfl
  | .leaf .thematicBreak, _, fuel, line, more, after, hlines, hafter, hfuel => by
    rw [rows] at hlines
    obtain ⟨_, _, ⟨⟩, htext, hmore⟩ := shows_cons.mp hlines
    rw [readBlock_thematicBreak _ _ htext, shows_nil.mp hmore]
    rfl
  | .node .paragraph children, h, fuel, line, more, after, hlines, hafter, hfuel => by
    rw [Doc.Normal] at h
    rw [rows] at hlines
    have hgoes : ∀ l ∈ line :: more, GoesOn l.text := by
      intro l hl
      obtain ⟨row, hrow, htext⟩ := hlines.text_mem hl
      obtain ⟨text, hmem, rfl⟩ := List.mem_map.mp hrow
      rw [htext]
      exact h.lines text hmem
    have hmore := splitParagraph_rows (fun l hl => hgoes l (List.mem_cons_of_mem line hl)) hafter
    rw [readBlock_paragraph _ _ (hgoes line List.mem_cons_self).apart, hmore]
    simp only [readParagraphLines_inlines h.runs hlines]
    rfl
  | .node (.heading level) children, h, fuel, line, more, after, hlines, hafter, hfuel => by
    rw [Doc.Normal] at h
    rw [rows] at hlines
    obtain ⟨_, _, ⟨⟩, htext, hmore⟩ := shows_cons.mp hlines
    rw [readBlock_heading _ _ h.level htext, shows_nil.mp hmore, readHeading_rows h htext]
    rfl
  | .node .blockQuote children, h, fuel, line, more, after, hlines, hafter, hfuel => by
    rw [Doc.Normal] at h
    rw [rows] at hlines
    obtain ⟨_, _, ⟨⟩, htext, _⟩ := shows_cons.mp hlines
    have hhead : line.text.head? = some '>' := by
      rw [htext]
      rfl
    rw [readBlock_quote _ _ hhead]
    apply readQuote_rows _ hlines hafter
    intro inside hinside hweight
    exact (readBlocks_rows h).inside h fuel hinside (by omega)
  | .node (.list kind start) items, h, fuel, line, more, after, hlines, hafter, hfuel => by
    rw [Doc.Normal] at h
    rw [rows] at hlines
    obtain ⟨hne, hstart, hitems⟩ := h
    obtain ⟨text, htext⟩ := text_itemRows kind start.toNat hne hlines
    have hcount : (line :: more).length ≤ (more ++ after).length + 1 := by
      rw [List.length_cons, List.length_append]
      omega
    obtain ⟨found, hsplit, hread⟩ := readItems_rows kind hitems fuel _ hlines hafter hfuel hcount
    have hlist : startOf kind line.text = start := by rw [htext, startOf_itemMark hstart]
    rw [readBlock_list _ _ kind start.toNat htext, readList, ← List.cons_append, hsplit]
    simp only [hread, hlist]
    rfl

/-- An item is read for each mark, from the lines up to the next. -/
theorem readItems_rows (kind : ListKind) : ∀ {items : List Doc}, Doc.NormalItems items →
    ∀ (fuel count : Nat) {number : Nat} {lines after : List Line}, Shows lines (itemRows kind number items) →
      Ends after → weight lines ≤ fuel → lines.length ≤ count →
      ∃ found, splitItems kind count (lines ++ after) = (found, after) ∧
        readItems (readBlocks fuel) found = .ok (Node.ofDocs items)
  | [], _, fuel, count, number, lines, after, hlines, hafter, _, _ => by
    rw [shows_nil.mp hlines]
    exact ⟨[], splitItems_ends kind hafter count, rfl⟩
  | doc :: rest, ⟨hdoc, hrest⟩, fuel, count, number, lines, after, hlines, hafter, hfuel, hcount => by
    obtain ⟨front, others, rfl, hfront, hothers⟩ := shows_append.mp hlines
    obtain ⟨line, more, rfl, htext, hmore⟩ := shows_cons.mp hfront
    have htext : line.text = itemMark '-' kind number ++ shown ((rows doc).headD none) := htext
    rw [weight_append] at hfuel
    rw [List.cons_append, List.length_cons, List.length_append] at hcount
    obtain ⟨count, rfl⟩ : ∃ n, count = n + 1 := ⟨count - 1, by omega⟩
    have hnext := splitItem_next kind hothers hafter
    obtain ⟨item, hitem, hshows, hweight⟩ :=
      splitItem_rows kind (legible_item hdoc).spaced.tail hmore hnext
    obtain ⟨found, hsplit, hread⟩ :=
      readItems_rows kind hrest fuel count hothers hafter (by omega) (by omega)
    have hskip : (line.skip (itemMark '-' kind number).length).text = shown ((rows doc).headD none) := by
      rw [Line.skip, htext, List.drop_left]
    have hinside : Shows (line.skip (itemMark '-' kind number).length :: item)
        ((rows doc).headD none :: (rows doc).tail) := shows_cons.mpr ⟨_, _, rfl, hskip, hshows⟩
    have hlighter := weight_item kind number htext hweight
    have hone := readItem_rows hdoc fuel hinside (by omega)
    refine ⟨(line.skip (itemMark '-' kind number).length :: item) :: found, ?_, ?_⟩
    · rw [List.append_assoc, List.cons_append]
      exact splitItems_item kind number count htext hitem hsplit
    · rw [readItems] at hread ⊢
      rw [List.mapM_cons, hone, hread]
      rfl

theorem readItem_rows : ∀ {doc : Doc}, doc.NormalItem → ∀ (fuel : Nat) {lines : List Line},
    Shows lines ((rows doc).headD none :: (rows doc).tail) → weight lines < fuel →
      (do pure (Node.markup .item (← readBlocks fuel lines))) = (.ok (Node.ofDoc doc) : Reading Node)
  | .node .item children, h, fuel, lines, hlines, hfuel => by
    rw [Doc.NormalItem] at h
    rw [rows] at hlines
    rw [(readBlocks_rows h).inside h fuel hlines hfuel]
    rfl

theorem readBlocks_rows : ∀ {docs : List Doc}, Doc.NormalAll docs → ReadsBack docs
  | [], _, fuel, lines, hlines, _ => by
    rw [shows_nil.mp hlines, readBlocks_nil]
    rfl
  | doc :: rest, ⟨hdoc, hrest⟩, fuel, lines, hlines, hfuel => by
    obtain ⟨front, after, rfl, hfront, hafter⟩ := shows_append.mp hlines
    obtain ⟨line, more, rfl, hunindented⟩ := shows_opens hfront (opens_rows hdoc)
    rw [weight_append] at hfuel
    obtain ⟨fuel, rfl⟩ : ∃ n, fuel = n + 1 := ⟨fuel - 1, by omega⟩
    have hpositive : 0 < weight (line :: more) := by
      rw [weight_cons]
      omega
    have hblock := readBlock_rows hdoc fuel hfront (ends_laterRows hrest hafter) (by omega)
    have hlater := (readBlocks_rows hrest).later fuel hafter (by omega)
    rw [List.cons_append, readBlocks, if_neg (by simp [hunindented.not_blank]), hblock]
    change (do pure (Node.ofDoc doc :: (← readBlocks fuel after))) = _
    rw [hlater]
    rfl

end

theorem shows_linesOf (markup : List Char) {rows : List Row} (h : Text.lines markup = rows.map shown) :
    Shows (linesOf markup) rows := by
  unfold Shows linesOf
  rw [List.map_map, ← h]
  have htext : Line.text ∘ (fun x : List Char × Nat => (⟨x.1, x.2 + 1, 1⟩ : Line)) = Prod.fst := rfl
  exact (congrArg (fun f => List.map f (Text.lines markup).zipIdx) htext).trans (List.zipIdx_map_fst 0 _)

/-- Blocks are read as they were rendered: reading is the inverse of rendering on all blocks that can
be read at all. -/
theorem read_render {docs : List Doc} (h : Doc.NormalAll docs) :
    Markup.read (Markdown.render Settings.standard.bullet docs) = .ok (Node.ofDocs docs) := by
  have hlines : Shows (linesOf (Markdown.render '-' docs).toList) (rowsAll docs) :=
    shows_linesOf _ (lines_render h)
  have hread := readBlocks_rows h _ _ hlines (Nat.lt_succ_self _)
  change Markup.read (Markdown.render '-' docs) = _
  rw [Markup.read, hread]
  change Except.ok (namedAll ⟨0, 0⟩ (Node.ofDocs docs)).1 = _
  rw [namedAll_ofDocs]

namespace Nested

/-- Empty and nested quotes and items, lists behind each other, code with an empty line, and breaks. -/
def docs : List Doc :=
  [.node (.heading 2) [.leaf (.text "Fees # 1")],
    .node .blockQuote
      [.node .paragraph [.leaf (.text "\x7bdue\x7d "), .leaf (.code "*x*"), .leaf .linebreak, .leaf (.text "soon")],
        .node .blockQuote []],
    .node (.list .ordered 9)
      [.node .item
        [.node .paragraph [.leaf (.text "one"), .leaf .softbreak, .leaf (.text "1.")],
          .node (.list .bullet 1) [.node .item [], .node .item [.leaf (.codeBlock (some "txt") "a\n\n  b")]]],
        .node .item [.leaf .thematicBreak]],
    .node (.list .ordered 11) [.node .item []]]

def markup : String :=
  "## Fees # 1\n\n> \\\x7bdue\\\x7d \x60*x*\x60\\\n> soon\n>\n> > \n\n" ++
    "9. one\n   1.\n\n   - \n   - \x60\x60\x60txt\n     a\n     \n       b\n     \x60\x60\x60\n" ++
    "10. ---\n\n11. "

theorem read_render_nested : Doc.NormalAll docs ∧ Markdown.render '-' docs = markup ∧
    Markup.read markup = .ok (Node.ofDocs docs) := by
  have hnormal : Doc.NormalAll docs := by decide +kernel
  have hmarkup : Markdown.render '-' docs = markup := by decide +kernel
  refine ⟨hnormal, hmarkup, ?_⟩
  rw [← hmarkup]
  exact read_render hnormal

end Nested

end Markup

end ClauseTemplates
