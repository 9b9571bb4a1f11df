import ClauseTemplates.Proofs.Document.Lines
import ClauseTemplates.Proofs.Document.Margins

namespace ClauseTemplates.Markdown

/-- A line of blocks, without what stands in front of all of them; none is the empty line between
two blocks. -/
abbrev Row := Option (List Char)

namespace Row

/-- The line where nothing stands in front. -/
def shown (row : Row) : List Char := row.getD []

/-- The line behind a margin. -/
def under (margin : List Char) : Row → List Char
  | none => Text.trimEnd margin
  | some line => margin ++ line

/-- The line inside a quote. -/
def quotedLine : Row → List Char
  | none => ['>']
  | some line => quoteMark ++ line

def quoted (row : Row) : Row := some row.quotedLine

/-- The line inside an item, behind the first. -/
def indented (kind : ListKind) (row : Row) : Row := row.map (itemIndent kind ++ ·)

/-- The lines of a quote or an item, whose mark stands there even if nothing is inside. -/
def marked (mark : List Char) (inner : Row → Row) (rows : List Row) : List Row :=
  some (mark ++ shown (rows.headD none)) :: rows.tail.map inner

/-- Lines behind the first, each with its line feed. -/
def continued (margin : List Char) (rows : List Row) : List Char :=
  rows.flatMap fun row => '\n' :: row.under margin

/-- Lines at a margin, which does not stand in front of the first. -/
def written (margin : List Char) (rows : List Row) : List Char :=
  shown (rows.headD none) ++ continued margin rows.tail

@[simp] theorem shown_none : shown none = [] := rfl

@[simp] theorem shown_some (line : List Char) : shown (some line) = line := rfl

theorem under_quoted (margin : List Char) (row : Row) :
    row.quoted.under margin = row.under (margin ++ quoteMark) := by
  cases row with
  | none =>
    have hblank : Text.isBlank ' ' = true := by decide
    have hmark : Text.isBlank '>' = false := by decide
    have hsplit : margin ++ quoteMark = margin ++ ['>'] ++ [' '] := by simp [quoteMark]
    change margin ++ ['>'] = Text.trimEnd (margin ++ quoteMark)
    rw [hsplit, Text.trimEnd_concat, if_pos hblank, Text.trimEnd_concat, hmark]
    rfl
  | some line => exact (List.append_assoc _ _ _).symm

theorem under_indented (margin : List Char) (kind : ListKind) (row : Row) :
    (row.indented kind).under margin = row.under (margin ++ itemIndent kind) := by
  cases row with
  | none =>
    have hblank : Text.isBlank ' ' = true := by decide
    have hspaces (n : Nat) : Text.trimEnd (margin ++ List.replicate n ' ') = Text.trimEnd margin := by
      induction n with
      | zero => rw [List.replicate_zero, List.append_nil]
      | succ n ih =>
        rw [List.replicate_succ', ← List.append_assoc, Text.trimEnd_concat, if_pos hblank, ih]
    change Text.trimEnd margin = Text.trimEnd (margin ++ itemIndent kind)
    cases kind with
    | bullet => exact (hspaces 2).symm
    | ordered => exact (hspaces 3).symm
  | some line => exact (List.append_assoc _ _ _).symm

theorem continued_append (margin : List Char) (rows more : List Row) :
    continued margin (rows ++ more) = continued margin rows ++ continued margin more :=
  List.flatMap_append

theorem written_append {rows : List Row} (hne : rows ≠ []) (margin : List Char) (more : List Row) :
    written margin (rows ++ more) = written margin rows ++ continued margin more := by
  obtain ⟨row, rest, rfl⟩ := List.exists_cons_of_ne_nil hne
  change shown row ++ continued margin (rest ++ more) = shown row ++ continued margin rest ++ _
  rw [continued_append, List.append_assoc]

/-- Lines behind others stand at the margin from their first on, if it is no empty line. -/
theorem continued_some (margin line : List Char) (rest : List Row) :
    continued margin (some line :: rest) = newline margin ++ written margin (some line :: rest) := by
  change '\n' :: (margin ++ line) ++ continued margin rest =
    '\n' :: margin ++ (line ++ continued margin rest)
  simp only [List.cons_append, List.append_assoc]

/-- The mark stands in front of what is inside, which is written at the margin inside. -/
theorem written_marked {margin inside : List Char} {inner : Row → Row}
    (h : ∀ row : Row, (inner row).under margin = row.under inside) (mark : List Char) (rows : List Row) :
    written margin (marked mark inner rows) = mark ++ written inside rows := by
  have hcontinued : continued margin (rows.tail.map inner) = continued inside rows.tail := by
    simp only [continued, List.flatMap_map, h]
  change mark ++ shown (rows.headD none) ++ continued margin (rows.tail.map inner) = _
  rw [hcontinued, List.append_assoc]
  rfl

/-- Lines at no margin are the lines themselves. -/
theorem written_nil {rows : List Row} : written [] rows = Text.joinWith ['\n'] (rows.map shown) := by
  have hunder (row : Row) : row.under [] = row.shown := by cases row <;> rfl
  cases rows with
  | nil => rfl
  | cons row rest =>
    change shown row ++ continued [] rest = _
    induction rest generalizing row with
    | nil => simp [continued, Text.joinWith]
    | cons next rest ih =>
      have hnext := ih next
      change shown row ++ ('\n' :: next.under [] ++ continued [] rest) =
        shown row ++ ['\n'] ++ Text.joinWith ['\n'] (shown next :: rest.map shown)
      rw [List.map_cons] at hnext
      rw [← hnext, hunder]
      simp

/-- A block begins with a line that is not indented. -/
def Opens (rows : List Row) : Prop :=
  ∃ c line rest, rows = some (c :: line) :: rest ∧ Text.isBlank c = false

/-- Behind each empty line between blocks there is another line. -/
def Spaced : List Row → Prop
  | [] => True
  | none :: rest => (∃ line, rest.head? = some (some line) ∧ Text.allBlank line = false) ∧ Spaced rest
  | some _ :: rest => Spaced rest

theorem Opens.append {rows : List Row} (h : Opens rows) (more : List Row) : Opens (rows ++ more) := by
  obtain ⟨c, line, rest, rfl, hc⟩ := h
  exact ⟨c, line, rest ++ more, rfl, hc⟩

theorem Opens.ne_nil {rows : List Row} (h : Opens rows) : rows ≠ [] := by
  obtain ⟨c, line, rest, rfl, _⟩ := h
  exact List.cons_ne_nil _ rest

theorem opens_marked {mark : List Char} (h : ∃ c ∈ mark.head?, Text.isBlank c = false)
    (inner : Row → Row) (rows : List Row) : Opens (marked mark inner rows) := by
  obtain ⟨c, hmark, hc⟩ := h
  obtain ⟨rest, rfl⟩ : ∃ rest, mark = c :: rest := ⟨mark.tail, (List.cons_head?_tail hmark).symm⟩
  exact ⟨c, _, _, rfl, hc⟩

theorem Spaced.append {rows more : List Row} (h : Spaced rows) (hmore : Spaced more) :
    Spaced (rows ++ more) := by
  induction rows with
  | nil => exact hmore
  | cons row rest ih =>
    cases row with
    | none =>
      obtain ⟨⟨line, hline, hblank⟩, hrest⟩ := h
      refine ⟨⟨line, ?_, hblank⟩, ih hrest⟩
      change (rest ++ more).head? = _
      rw [List.head?_append, hline]
      rfl
    | some line => exact ih h

theorem Spaced.tail {rows : List Row} (h : Spaced rows) : Spaced rows.tail := by
  cases rows with
  | nil => trivial
  | cons row rest =>
    cases row with
    | none => exact h.2
    | some line => exact h

theorem Spaced.gap {rows : List Row} (h : Spaced rows) (hopens : Opens rows) : Spaced (none :: rows) := by
  obtain ⟨c, line, rest, rfl, hc⟩ := hopens
  refine ⟨⟨c :: line, rfl, ?_⟩, h⟩
  simp [Text.allBlank, hc]

theorem spaced_map_some {α : Type} (f : α → List Char) (xs : List α) :
    Spaced (xs.map fun x => some (f x)) := by
  induction xs with
  | nil => trivial
  | cons x xs ih => exact ih

theorem Spaced.indented {rows : List Row} (h : Spaced rows) (kind : ListKind) :
    Spaced (rows.map (indented kind)) := by
  induction rows with
  | nil => trivial
  | cons row rest ih =>
    cases row with
    | none =>
      obtain ⟨⟨line, hline, hblank⟩, hrest⟩ := h
      refine ⟨⟨itemIndent kind ++ line, ?_, ?_⟩, ih hrest⟩
      · rw [List.head?_map, hline]
        rfl
      · unfold Text.allBlank at hblank ⊢
        rw [List.all_append, hblank, Bool.and_false]
    | some line => exact ih h

/-- What a line is once it is read again: no line feed is inside, and it keeps its end. -/
def Clean (line : List Char) : Prop := '\n' ∉ line ∧ line.getLast? ≠ some '\r'

theorem Clean.append {front line : List Char} (hfront : Clean front) (h : Clean line) :
    Clean (front ++ line) := by
  refine ⟨?_, ?_⟩
  · rw [List.mem_append, not_or]
    exact ⟨hfront.1, h.1⟩
  · rw [List.getLast?_append]
    intro hlast
    rcases Option.or_eq_some_iff.mp hlast with hlast | ⟨_, hlast⟩
    · exact h.2 hlast
    · exact hfront.2 hlast

theorem clean_nil : Clean [] := ⟨List.not_mem_nil, nofun⟩

/-- Lines that are read again as they were written. -/
structure Legible (rows : List Row) : Prop where
  spaced : Spaced rows
  clean : ∀ row ∈ rows, Clean (shown row)
  last : ∀ row ∈ rows.getLast?, shown row ≠ []

namespace Legible

variable {rows more : List Row}

theorem nil : Legible [] := ⟨trivial, nofun, nofun⟩

theorem append (h : Legible rows) (hmore : Legible more) : Legible (rows ++ more) := by
  refine ⟨h.spaced.append hmore.spaced, List.forall_mem_append.mpr ⟨h.clean, hmore.clean⟩, ?_⟩
  intro row hrow
  rw [List.getLast?_append] at hrow
  rcases Option.or_eq_some_iff.mp hrow with hrow | ⟨_, hrow⟩
  · exact hmore.last row hrow
  · exact h.last row hrow

theorem gap (h : Legible rows) (hopens : Opens rows) : Legible (none :: rows) := by
  refine ⟨h.spaced.gap hopens, List.forall_mem_cons.mpr ⟨clean_nil, h.clean⟩, ?_⟩
  intro row hrow
  obtain ⟨next, rest, rfl⟩ := List.exists_cons_of_ne_nil hopens.ne_nil
  rw [List.getLast?_cons_cons] at hrow
  exact h.last row hrow

theorem single {line : List Char} (h : Clean line) (hne : line ≠ []) : Legible [some line] := by
  refine ⟨trivial, ?_, ?_⟩
  · intro row hrow
    rw [List.mem_singleton.mp hrow]
    exact h
  · rintro row ⟨⟩
    exact hne

/-- Marks are put in front of lines, and nothing else changes about them. -/
theorem marked (h : Legible rows) {mark : List Char} (hmark : Clean mark) (hne : mark ≠ [])
    {inner : Row → Row} (hspaced : Spaced (rows.tail.map inner))
    (hinner : ∀ row : Row, ∃ front, Clean front ∧ shown (inner row) = front ++ shown row) :
    Legible (Row.marked mark inner rows) := by
  have hfirst : Clean (shown (rows.headD none)) := by
    cases rows with
    | nil => exact clean_nil
    | cons row rest => exact h.clean row List.mem_cons_self
  refine ⟨hspaced, ?_, ?_⟩
  · intro row hrow
    rcases List.mem_cons.mp hrow with rfl | hrow
    · exact hmark.append hfirst
    · obtain ⟨before, hbefore, rfl⟩ := List.mem_map.mp hrow
      obtain ⟨front, hfront, hshown⟩ := hinner before
      rw [hshown]
      exact hfront.append (h.clean before (List.mem_of_mem_tail hbefore))
  · intro row hrow
    rw [Row.marked, List.getLast?_cons, List.getLast?_map] at hrow
    cases hlast : rows.tail.getLast? with
    | none =>
      rw [hlast] at hrow
      cases hrow
      simp [hne]
    | some before =>
      rw [hlast] at hrow
      cases hrow
      obtain ⟨front, _, hshown⟩ := hinner before
      have hbefore : before ∈ rows.getLast? := by
        cases rows with
        | nil => cases hlast
        | cons first rest =>
          rw [List.getLast?_cons]
          rw [List.tail_cons] at hlast
          rw [hlast]
          rfl
      change shown (inner before) ≠ []
      rw [hshown]
      simp [h.last before hbefore]

theorem quoted (h : Legible rows) : Legible (Row.marked quoteMark quoted rows) := by
  refine h.marked ?_ (List.cons_ne_nil _ _) ?_ ?_
  · exact ⟨by decide, by decide⟩
  · exact spaced_map_some quotedLine rows.tail
  · intro row
    cases row with
    | none => exact ⟨['>'], ⟨by decide, by decide⟩, rfl⟩
    | some line => exact ⟨quoteMark, ⟨by decide, by decide⟩, rfl⟩

theorem item (h : Legible rows) {mark : List Char} (hmark : Clean mark) (hne : mark ≠ [])
    (kind : ListKind) : Legible (Row.marked mark (indented kind) rows) := by
  refine h.marked hmark hne (h.spaced.tail.indented kind) ?_
  intro row
  cases row with
  | none => exact ⟨[], clean_nil, rfl⟩
  | some line =>
    refine ⟨itemIndent kind, ?_, rfl⟩
    cases kind <;> exact ⟨by decide, by decide⟩

/-- The lines of what is written are found again. -/
theorem lines_written (h : Legible rows) : Text.lines (written [] rows) = rows.map shown := by
  rw [written_nil]
  refine Text.lines_joinWith ?_ ?_ ?_
  · intro line hline
    obtain ⟨row, hrow, rfl⟩ := List.mem_map.mp hline
    exact (h.clean row hrow).1
  · intro line hline
    obtain ⟨row, hrow, rfl⟩ := List.mem_map.mp hline
    exact (h.clean row hrow).2
  · intro hlast
    rw [List.getLast?_map] at hlast
    obtain ⟨row, hrow, hshown⟩ := Option.map_eq_some_iff.mp hlast
    exact h.last row hrow hshown

end Legible

end Row

end ClauseTemplates.Markdown
