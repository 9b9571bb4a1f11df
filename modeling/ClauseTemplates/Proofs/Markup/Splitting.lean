import ClauseTemplates.Proofs.Markup.FirstLine

namespace ClauseTemplates.Markup

open Markdown Markdown.Row

/-- Lines of markup that hold the lines of blocks. -/
def Shows (lines : List Line) (rows : List Row) : Prop := lines.map Line.text = rows.map shown

/-- A line that does not begin with a blank. -/
def Unindented (line : Line) : Prop := ∃ c ∈ line.text.head?, Text.isBlank c = false

/-- Behind a block there is nothing, or an empty line before another that is not indented. -/
def Ends : List Line → Prop
  | [] => True
  | gap :: rest => gap.text = [] ∧ ∃ next ∈ rest.head?, Unindented next

variable {lines after : List Line} {rows more : List Row}

theorem shows_cons {row : Row} : Shows lines (row :: rows) ↔
    ∃ line rest, lines = line :: rest ∧ line.text = shown row ∧ Shows rest rows := List.map_eq_cons_iff

theorem shows_append : Shows lines (rows ++ more) ↔
    ∃ front rest, lines = front ++ rest ∧ Shows front rows ∧ Shows rest more := by
  unfold Shows
  rw [List.map_append]
  exact List.map_eq_append_iff

theorem shows_nil : Shows lines [] ↔ lines = [] := List.map_eq_nil_iff

theorem Shows.text_mem (h : Shows lines rows) {line : Line} (hline : line ∈ lines) :
    ∃ row ∈ rows, line.text = shown row := by
  have hmem : line.text ∈ lines.map Line.text := List.mem_map_of_mem hline
  rw [h] at hmem
  obtain ⟨row, hrow, heq⟩ := List.mem_map.mp hmem
  exact ⟨row, hrow, heq.symm⟩

theorem weight_cons (line : Line) (lines : List Line) :
    weight (line :: lines) = line.text.length + 1 + weight lines := rfl

theorem weight_append (front rest : List Line) : weight (front ++ rest) = weight front + weight rest := by
  induction front with
  | nil => exact (Nat.zero_add _).symm
  | cons line front ih =>
    rw [List.cons_append, weight_cons, weight_cons, ih]
    omega

theorem weight_map_le {f : Line → Line} (h : ∀ line, (f line).text.length ≤ line.text.length)
    (lines : List Line) : weight (lines.map f) ≤ weight lines := by
  induction lines with
  | nil => exact Nat.le_refl _
  | cons line lines ih =>
    have hline := h line
    rw [List.map_cons, weight_cons, weight_cons]
    omega

theorem readParagraphLines_inlines {children : List Doc} (h : Doc.Runs children)
    (hlines : Shows lines (ofText (Markdown.inlines '-' [] children))) :
    readParagraphLines lines = .ok (Node.ofDocs children) := by
  have htexts : lines.map Line.text = (Markdown.inlines '-' [] children).splitOn '\n' := by
    rw [hlines, ofText, List.map_map]
    exact List.map_id _
  have hjoined : Text.joinWith ['\n'] (lines.map Line.text) = Markdown.inlines '-' [] children := by
    rw [htexts, Text.joinWith_eq_intercalate, List.intercalate_splitOn]
  rw [readParagraphLines, hjoined, readInlines_inlines '-' h]

theorem readFence_rows {info : Option String} {text : String} (h : Doc.NormalCode info text)
    (hlines : Shows lines ((Text.lines text.toList).map some ++ [some fence])) (line : Line) :
    readFence line (info.getD "").toList (lines ++ after) = .ok (.leaf (.codeBlock info text), after) := by
  obtain ⟨body, last, rfl, hbody, hlast⟩ := shows_append.mp hlines
  obtain ⟨close, rest, rfl, hclose, hrest⟩ := shows_cons.mp hlast
  rw [shows_nil.mp hrest]
  have hopen : ∀ line ∈ body, (!endsFence line) = true := by
    intro line hline
    obtain ⟨row, hrow, htext⟩ := hbody.text_mem hline
    obtain ⟨inside, hinside, rfl⟩ := List.mem_map.mp hrow
    have hne := h.fence inside hinside
    rw [endsFence, htext]
    simpa using hne
  have hfence : endsFence close = true := by
    rw [endsFence, hclose]
    decide
  have hspan : (body ++ close :: after).span (fun line => !endsFence line) = (body, close :: after) := by
    apply span_append hopen
    rintro line ⟨⟩
    simp [hfence]
  have htexts : body.map Line.text = Text.lines text.toList := by
    rw [hbody, List.map_map]
    exact List.map_id _
  have hjoined : Text.joinWith ['\n'] (body.map Line.text) = text.toList := by
    rw [htexts, Text.joinWith_lines h.returns h.last]
  rw [List.append_assoc, List.singleton_append, readFence, hspan]
  simp only [hjoined, String.ofList_toList]
  cases info with
  | none => rfl
  | some s =>
    obtain ⟨hne, _, htrim⟩ := h.info s rfl
    simp [htrim, hne]

theorem readHeading_rows {level : UInt8} {children : List Doc} (h : Doc.NormalHeading level children)
    {line : Line} (htext : line.text = headingMark level.toNat ++ Markdown.inlines '-' [] children) :
    readHeading level.toNat line after = .ok (.markup (.heading level) (Node.ofDocs children), after) := by
  have hlevel : UInt8.ofNat level.toNat = level := UInt8.ofNat_toNat
  have hline := not_mem_inlines h.runs h.breaks (by decide) (by decide)
  have hskip : (line.skip (level.toNat + 1)).text = Markdown.inlines '-' [] children := by
    rw [Line.skip, htext, headingMark, List.drop_append_of_le_length (by simp)]
    simp
  have hshows : Shows [line.skip (level.toNat + 1)] (ofText (Markdown.inlines '-' [] children)) := by
    rw [ofText, List.splitOn_eq_singleton hline]
    exact congrArg (fun text => [text]) hskip
  rw [readHeading, readParagraphLines_inlines h.runs hshows, hlevel]
  rfl

theorem splitParagraph_rows (hrows : ∀ line ∈ lines, GoesOn line.text) (hafter : Ends after) :
    splitParagraph (lines ++ after) = (lines, after) := by
  apply span_append
  · intro line hline
    have hgoes := hrows line hline
    simp [Line.isBlank, hgoes.blank, hgoes.apart]
  · intro gap hgap
    cases after with
    | nil => cases hgap
    | cons first rest =>
      cases hgap
      rw [Line.isBlank, hafter.1]
      rfl

/-! ### Quotes -/

theorem length_unquoted (line : Line) : (unquoted line).text.length ≤ line.text.length := by
  rw [unquoted, Line.skip, List.length_drop]
  omega

theorem unquoted_quoteMark {line : Line} {text : List Char} (h : line.text = quoteMark ++ text) :
    (unquoted line).text = text := by
  rw [unquoted, h, Text.startsWith_append, if_pos rfl, Line.skip, h]
  rfl

theorem unquoted_quoted {line : Line} {row : Row} (h : line.text = shown row.quoted) :
    (unquoted line).text = shown row := by
  cases row with
  | none =>
    have htext : line.text = ['>'] := h
    rw [unquoted, htext, Line.skip, htext]
    rfl
  | some text => exact unquoted_quoteMark h

theorem Shows.unquoted (h : Shows lines (rows.map quoted)) : Shows (lines.map unquoted) rows := by
  induction rows generalizing lines with
  | nil =>
    rw [shows_nil.mp h]
    rfl
  | cons row rows ih =>
    obtain ⟨line, rest, rfl, hline, hrest⟩ := shows_cons.mp h
    exact shows_cons.mpr ⟨_, _, rfl, unquoted_quoted hline, ih hrest⟩

/-- A quote is read without its marks. -/
theorem readQuote_rows (read : List Line → Reading (List Node)) {line : Line} {nodes : List Node}
    (hlines : Shows (line :: lines) (marked quoteMark quoted rows)) (hafter : Ends after)
    (hread : ∀ inside, Shows inside (rows.headD none :: rows.tail) →
      weight inside < weight (line :: lines) → read inside = .ok nodes) :
    readQuote read line (lines ++ after) = .ok (.markup .blockQuote nodes, after) := by
  obtain ⟨first, rest, heq, hfirst, hrest⟩ := shows_cons.mp hlines
  cases heq
  have hquoted : ∀ l ∈ line :: lines, isQuoted l.text = true := by
    intro l hl
    rcases List.mem_cons.mp hl with rfl | hl
    · rw [hfirst]
      rfl
    · obtain ⟨row, hrow, htext⟩ := hrest.text_mem hl
      obtain ⟨inner, _, rfl⟩ := List.mem_map.mp hrow
      rw [htext]
      cases inner <;> rfl
  have hspan : (line :: lines ++ after).span (fun l => isQuoted l.text) = (line :: lines, after) := by
    apply span_append hquoted
    intro gap hgap
    cases after with
    | nil => cases hgap
    | cons next more =>
      cases hgap
      rw [hafter.1]
      rfl
  have hinside : Shows ((line :: lines).map unquoted) (rows.headD none :: rows.tail) := by
    exact shows_cons.mpr ⟨unquoted line, lines.map unquoted, rfl, unquoted_quoteMark hfirst,
      hrest.unquoted⟩
  have hweight : weight ((line :: lines).map unquoted) < weight (line :: lines) := by
    have hmore := weight_map_le length_unquoted lines
    have hone : (unquoted line).text.length < line.text.length := by
      rw [unquoted_quoteMark hfirst, hfirst]
      simp only [quoteMark, shown_some, List.cons_append, List.nil_append, List.length_cons]
      omega
    rw [List.map_cons, weight_cons, weight_cons]
    omega
  rw [readQuote, ← List.cons_append, hspan]
  simp only [hread _ hinside hweight]
  rfl

/-! ### Items -/

theorem exists_itemIndent (kind : ListKind) : ∃ rest, itemIndent kind = ' ' :: rest := by
  cases kind <;> exact ⟨_, rfl⟩

theorem Unindented.startsWith {line : Line} (h : Unindented line) (kind : ListKind) :
    Text.startsWith (itemIndent kind) line.text = false := by
  obtain ⟨c, hc, hblank⟩ := h
  obtain ⟨rest, hindent⟩ := exists_itemIndent kind
  rw [hindent]
  apply Text.startsWith_ne
  rw [Option.mem_def.mp hc]
  rintro ⟨⟩
  cases hblank

theorem Unindented.not_blank {line : Line} (h : Unindented line) : line.isBlank = false := by
  obtain ⟨c, hc, hblank⟩ := h
  cases htext : line.text with
  | nil =>
    rw [htext] at hc
    cases hc
  | cons d rest =>
    rw [htext] at hc
    cases hc
    simp [Line.isBlank, Text.allBlank, htext, hblank]

/-- An item does not go on with a line that is not indented. -/
theorem splitItem_unindented (kind : ListKind) {line : Line} (h : Unindented line) (rest : List Line) :
    splitItem (itemIndent kind) (line :: rest) = ([], line :: rest) := by
  rw [splitItem, h.startsWith kind, h.not_blank]
  rfl

theorem splitItem_ends (kind : ListKind) (h : Ends lines) :
    splitItem (itemIndent kind) lines = ([], lines) := by
  cases lines with
  | nil => rfl
  | cons gap rest =>
    obtain ⟨hgap, next, hnext, hunindented⟩ := h
    obtain ⟨more, rfl⟩ : ∃ more, rest = next :: more := ⟨rest.tail, (List.cons_head?_tail hnext).symm⟩
    have hstart : Text.startsWith (itemIndent kind) gap.text = false := by
      rw [hgap]
      cases kind <;> rfl
    have hblank : gap.isBlank = true := by
      rw [Line.isBlank, hgap]
      rfl
    have hfind : (gap :: next :: more).find? (fun line => !line.isBlank) = some next := by
      simp [hblank, hunindented.not_blank]
    have hgoes : continuesItem (itemIndent kind) (gap :: next :: more) = false := by
      rw [continuesItem, hfind]
      exact hunindented.startsWith kind
    rw [splitItem, hstart, hgoes, Bool.and_false]
    rfl

/-- An item is read without its indent, and the empty lines between its blocks stay inside. -/
theorem splitItem_rows (kind : ListKind) (hspaced : Spaced rows)
    (hlines : Shows lines (rows.map (indented kind)))
    (hafter : splitItem (itemIndent kind) after = ([], after)) :
    ∃ item, splitItem (itemIndent kind) (lines ++ after) = (item, after) ∧ Shows item rows ∧
      weight item ≤ weight lines := by
  induction rows generalizing lines with
  | nil =>
    rw [shows_nil.mp hlines]
    exact ⟨[], hafter, rfl, Nat.le_refl _⟩
  | cons row rows ih =>
    obtain ⟨line, rest, rfl, htext, hrest⟩ := shows_cons.mp hlines
    cases row with
    | some text =>
      obtain ⟨item, hitem, hshows, hweight⟩ := ih hspaced hrest
      have htext : line.text = itemIndent kind ++ text := htext
      have hskip : (line.skip (itemIndent kind).length).text = text := by
        rw [Line.skip, htext, List.drop_left]
      refine ⟨line.skip (itemIndent kind).length :: item, ?_, ?_, ?_⟩
      · rw [List.cons_append, splitItem, htext, Text.startsWith_append, if_pos rfl, hitem]
      · exact shows_cons.mpr ⟨_, _, rfl, hskip, hshows⟩
      · rw [weight_cons, weight_cons, hskip, htext, List.length_append]
        omega
    | none =>
      obtain ⟨⟨text, hnext, hblank⟩, hspaced⟩ := hspaced
      obtain ⟨item, hitem, hshows, hweight⟩ := ih hspaced hrest
      have htext : line.text = [] := htext
      obtain ⟨rows, rfl⟩ : ∃ more, rows = some text :: more := ⟨rows.tail, (List.cons_head?_tail hnext).symm⟩
      obtain ⟨next, more, rfl, hindented, _⟩ := shows_cons.mp hrest
      have hindented : next.text = itemIndent kind ++ text := hindented
      have hstart : Text.startsWith (itemIndent kind) line.text = false := by
        rw [htext]
        cases kind <;> rfl
      have hempty : line.isBlank = true := by
        rw [Line.isBlank, htext]
        rfl
      have hfull : next.isBlank = false := by
        unfold Text.allBlank at hblank
        rw [Line.isBlank, Text.allBlank, hindented, List.all_append, hblank, Bool.and_false]
      have hfind : (line :: next :: (more ++ after)).find? (fun line => !line.isBlank) = some next := by
        simp [hempty, hfull]
      have hgoes : continuesItem (itemIndent kind) (line :: next :: (more ++ after)) = true := by
        rw [continuesItem, hfind, Option.any_some, hindented, Text.startsWith_append]
      refine ⟨{ line with text := [] } :: item, ?_, ?_, ?_⟩
      · rw [List.cons_append] at hitem
        rw [List.cons_append, List.cons_append, splitItem, hstart, hempty, hgoes, hitem]
        rfl
      · exact shows_cons.mpr ⟨_, _, rfl, rfl, hshows⟩
      · rw [weight_cons, weight_cons, htext]
        exact Nat.add_le_add_left hweight _

/-- Nothing of a list is left where something else begins. -/
theorem splitItems_ends (kind : ListKind) (h : Ends lines) (count : Nat) :
    splitItems kind count lines = ([], lines) := by
  cases count with
  | zero => rfl
  | succ count =>
    cases lines with
    | nil => rfl
    | cons gap rest =>
      have hmark : itemMark? kind gap.text = none := by
        rw [h.1]
        cases kind <;> rfl
      rw [splitItems, hmark]

theorem splitItems_item (kind : ListKind) (number count : Nat) {line : Line} {text : List Char}
    (htext : line.text = itemMark '-' kind number ++ text) {rest item after after' : List Line}
    {items : List (List Line)} (hitem : splitItem (itemIndent kind) rest = (item, after))
    (hitems : splitItems kind count after = (items, after')) :
    splitItems kind (count + 1) (line :: rest) =
      ((line.skip (itemMark '-' kind number).length :: item) :: items, after') := by
  rw [splitItems, htext, itemMark?_itemMark]
  simp only [hitem, hitems]

end ClauseTemplates.Markup
