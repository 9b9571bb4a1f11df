import ClauseTemplates.Markup.Block
import ClauseTemplates.Proofs.Markup.Normal
import ClauseTemplates.Proofs.Text.Front

namespace ClauseTemplates

namespace Text

theorem isDecimalDigit_digit {c : Char} (h : c.isDigit = true) : isDecimalDigit c = true := by
  simp only [Char.isDigit, Bool.and_eq_true, decide_eq_true_eq, ge_iff_le] at h
  have h₁ : 48 ≤ c.toNat := h.1
  have h₂ : c.toNat ≤ 57 := h.2
  simp [isDecimalDigit, inRanges, decimalDigitRanges, h₁, h₂]

end Text

namespace Markup

open Markdown Markdown.Row

/-! ### How a block is told by its first line -/

section FirstLine

variable {text : List Char}

theorem regionOpening?_ne (h : text.head? ≠ some '\x7b') : regionOpening? text = none := by
  rw [regionOpening?, Text.dropStart?_ne h]
  rfl

theorem regionClosing?_ne (h : text.head? ≠ some '\x7b') : regionClosing? text = none := by
  rw [regionClosing?, Text.dropStart?_ne h]
  rfl

theorem headingLevel?_ne (h : text.head? ≠ some '#') : headingLevel? text = none := by
  cases text with
  | nil => rfl
  | cons c rest =>
    have hc : (c == '#') = false := by
      rw [beq_eq_false_iff_ne]
      rintro rfl
      exact h rfl
    have hspan : (c :: rest).span (· == '#') = ([], c :: rest) := by
      rw [List.span_eq_takeWhile_dropWhile, List.takeWhile_cons, List.dropWhile_cons, hc]
      rfl
    rw [headingLevel?, hspan]
    split
    · rename_i heq
      cases heq
      rfl
    · rfl

theorem headingLevel?_mark {level : Nat} (hlevel : 1 ≤ level ∧ level ≤ 6) (text : List Char) :
    headingLevel? (headingMark level ++ text) = some level := by
  have hspan : (headingMark level ++ text).span (· == '#') = (List.replicate level '#', ' ' :: text) := by
    rw [headingMark, List.append_assoc]
    apply span_append
    · intro c hc
      rw [List.eq_of_mem_replicate hc]
      rfl
    · rintro c ⟨⟩
      rfl
  rw [headingLevel?, hspan]
  simp [hlevel]

theorem isThematicBreak_ne (h : Text.startsWith thematicBreak text = false) :
    isThematicBreak text = false := by
  have hnone : Text.dropStart? thematicBreak text = none := by simpa [Text.startsWith] using h
  rw [isThematicBreak, hnone]
  rfl

theorem isQuoted_ne (h : text.head? ≠ some '>') : isQuoted text = false := by
  simpa [isQuoted] using h

theorem itemMark?_bullet_ne (hdash : text.head? ≠ some '-') (hstar : text.head? ≠ some '*') :
    itemMark? .bullet text = none := by
  unfold itemMark?
  dsimp only
  split
  · rename_i c rest
    rw [if_neg]
    rintro (rfl | rfl)
    · exact hdash rfl
    · exact hstar rfl
  · rfl

theorem span_orderedMark (number : Nat) (text : List Char) :
    (orderedMark number ++ text).span Text.isDecimalDigit =
      (Decimal.digitChars number, '.' :: ' ' :: text) := by
  rw [orderedMark, List.append_assoc]
  apply span_append
  · intro c hc
    exact Text.isDecimalDigit_digit (Decimal.isDigit_of_mem_digitChars hc)
  · rintro c ⟨⟩
    decide

theorem itemMark?_itemMark (kind : ListKind) (number : Nat) (text : List Char) :
    itemMark? kind (itemMark '-' kind number ++ text) = some (itemMark '-' kind number).length := by
  cases kind with
  | bullet => rfl
  | ordered =>
    obtain ⟨c, rest, hdigits, _⟩ := digitChars_eq_cons number
    rw [itemMark, itemMark?, span_orderedMark, orderedMark, hdigits]
    simp

/-- The first number of a list is read again. -/
theorem itemNumber_orderedMark (start : UInt32) (text : List Char) :
    itemNumber (orderedMark start.toNat ++ text) = start := by
  have hspan := span_orderedMark start.toNat text
  rw [List.span_eq_takeWhile_dropWhile] at hspan
  have hnumber := Decimal.ofDigitChars_digitChars start.toNat
  have hbound : start.toNat < power 2 32 := start.toNat_lt
  have hdigits : (Decimal.digitChars start.toNat).all Char.isDigit = true :=
    List.all_eq_true.mpr fun c hc => Decimal.isDigit_of_mem_digitChars hc
  rw [itemNumber, (Prod.mk.inj hspan).1, hnumber, if_pos ⟨hdigits, hbound⟩]
  exact UInt32.ofNat_toNat

end FirstLine

/-! ### How a block is read, told by its first line -/

section FirstLine

variable (read : List Line → Reading (List Node)) {line : Line} (rest : List Line)

theorem readBlock_fence {info : List Char} (h : line.text = fence ++ info) :
    readBlock read line rest = readFence line info rest := by
  have hopen : regionOpening? line.text = none := regionOpening?_ne (by simp [h, fence])
  have hclose : regionClosing? line.text = none := regionClosing?_ne (by simp [h, fence])
  have hfence : Text.dropStart? fence line.text = some info := by rw [h, Text.dropStart?_append]
  unfold readBlock
  simp only [hopen, hclose, hfence, Option.isSome_none, Bool.false_eq_true, if_false]

/-- A heading is read from what stands behind its mark. -/
def readHeading (level : Nat) (line : Line) (rest : List Line) : Reading (Node × List Line) := do
  let children ← readParagraphLines [line.skip (level + 1)]
  pure (.markup (.heading (.ofNat level)) children, rest)

theorem readBlock_heading {level : Nat} (hlevel : 1 ≤ level ∧ level ≤ 6) {text : List Char}
    (h : line.text = headingMark level ++ text) :
    readBlock read line rest = readHeading level line rest := by
  obtain ⟨n, rfl⟩ : ∃ n, level = n + 1 := ⟨level - 1, by omega⟩
  have hhead : line.text.head? = some '#' := by rw [h, headingMark, List.replicate_succ]; rfl
  have hopen : regionOpening? line.text = none := regionOpening?_ne (by simp [hhead])
  have hclose : regionClosing? line.text = none := regionClosing?_ne (by simp [hhead])
  have hfence : Text.dropStart? fence line.text = none := Text.dropStart?_ne (by simp [hhead])
  have hheading : headingLevel? line.text = some (n + 1) := by rw [h, headingLevel?_mark hlevel]
  unfold readBlock
  simp only [hopen, hclose, hfence, hheading, Option.isSome_none, Bool.false_eq_true, if_false]
  rfl

def readQuote (line : Line) (rest : List Line) : Reading (Node × List Line) := do
  let (quote, after) := (line :: rest).span fun line => isQuoted line.text
  pure (.markup .blockQuote (← read (quote.map unquoted)), after)

/-- What a list starts with. -/
def startOf (kind : ListKind) (text : List Char) : UInt32 :=
  match kind with
  | .bullet => 1
  | .ordered => itemNumber text

def readItems (items : List (List Line)) : Reading (List Node) :=
  items.mapM fun item => do pure (Node.markup .item (← read item))

def readList (kind : ListKind) (line : Line) (rest : List Line) : Reading (Node × List Line) := do
  let (items, after) := splitItems kind (rest.length + 1) (line :: rest)
  let items ← readItems read items
  pure (.markup (.list kind (startOf kind line.text)) items, after)

/-- Blocks that are neither regions nor fenced nor headings. -/
theorem readBlock_unmarked (hbrace : line.text.head? ≠ some '\x7b') (htick : line.text.head? ≠ some '\x60')
    (hsharp : line.text.head? ≠ some '#') : readBlock read line rest =
      if isThematicBreak line.text then .ok (.leaf .thematicBreak, rest)
      else if isQuoted line.text then readQuote read line rest
      else if (itemMark? .bullet line.text).isSome then readList read .bullet line rest
      else if (itemMark? .ordered line.text).isSome then readList read .ordered line rest
      else (do
        let (more, after) := splitParagraph rest
        pure (.markup .paragraph (← readParagraphLines (line :: more)), after)) := by
  have hopen : regionOpening? line.text = none := regionOpening?_ne hbrace
  have hclose : regionClosing? line.text = none := regionClosing?_ne hbrace
  have hfence : Text.dropStart? fence line.text = none := Text.dropStart?_ne htick
  have hheading : headingLevel? line.text = none := headingLevel?_ne hsharp
  unfold readBlock
  simp only [hopen, hclose, hfence, hheading, Option.isSome_none, Bool.false_eq_true, if_false]
  rfl

theorem readBlock_thematicBreak (h : line.text = thematicBreak) :
    readBlock read line rest = .ok (.leaf .thematicBreak, rest) := by
  have hbreak : isThematicBreak line.text = true := by rw [h]; decide
  have hhead : line.text.head? = some '-' := by rw [h]; rfl
  rw [readBlock_unmarked read rest (by simp [hhead]) (by simp [hhead]) (by simp [hhead]), if_pos hbreak]

theorem readBlock_quote (h : line.text.head? = some '>') :
    readBlock read line rest = readQuote read line rest := by
  have hbreak : isThematicBreak line.text = false := isThematicBreak_ne (Text.startsWith_ne (by simp [h]))
  have hquoted : isQuoted line.text = true := by simp [isQuoted, h]
  rw [readBlock_unmarked read rest (by simp [h]) (by simp [h]) (by simp [h])]
  simp only [hbreak, hquoted, Bool.false_eq_true, if_false, if_true]

theorem readBlock_list (kind : ListKind) (number : Nat) {text : List Char}
    (h : line.text = itemMark '-' kind number ++ text) :
    readBlock read line rest = readList read kind line rest := by
  have hmark := itemMark?_itemMark kind number text
  rw [← h] at hmark
  cases kind with
  | bullet =>
    have htext : line.text = '-' :: ' ' :: text := h
    have hbreak : isThematicBreak line.text = false := 
      isThematicBreak_ne (by simp [htext, Text.startsWith, Text.dropStart?, thematicBreak])
    have hquoted : isQuoted line.text = false := isQuoted_ne (by simp [htext])
    rw [readBlock_unmarked read rest (by simp [htext]) (by simp [htext]) (by simp [htext])]
    simp only [hbreak, hquoted, hmark, Option.isSome_some, Bool.false_eq_true, if_false, if_true]
  | ordered =>
    obtain ⟨c, digits, hdigits, hall⟩ := digitChars_eq_cons number
    have hhead : line.text.head? = some c := by rw [h, itemMark, orderedMark, hdigits]; rfl
    have hne {d : Char} (hd : d.isDigit = false) : line.text.head? ≠ some d := by
      rw [hhead]
      rintro ⟨⟩
      rw [hall c List.mem_cons_self] at hd
      cases hd
    have hbreak : isThematicBreak line.text = false := isThematicBreak_ne (Text.startsWith_ne (hne (by decide)))
    have hquoted : isQuoted line.text = false := isQuoted_ne (hne (by decide))
    have hbullet : itemMark? .bullet line.text = none :=
      itemMark?_bullet_ne (hne (by decide)) (hne (by decide))
    rw [readBlock_unmarked read rest (hne (by decide)) (hne (by decide)) (hne (by decide))]
    simp only [hbreak, hquoted, hbullet, hmark, Option.isSome_some, Option.isSome_none, Bool.false_eq_true,
      if_false, if_true]

theorem readBlock_paragraph (h : startsBlock line.text = false) :
    readBlock read line rest = (do
      let (more, after) := splitParagraph rest
      pure (.markup .paragraph (← readParagraphLines (line :: more)), after)) := by
  simp only [startsBlock, Bool.or_eq_false_iff, Option.isSome_eq_false_iff, Option.isNone_iff_eq_none] at h
  obtain ⟨⟨⟨⟨⟨⟨⟨hopen, hclose⟩, hfence⟩, hquoted⟩, hheading⟩, hbreak⟩, hbullet⟩, hordered⟩ := h
  have hfence : Text.dropStart? fence line.text = none := by simpa [Text.startsWith] using hfence
  unfold readBlock
  simp only [hopen, hclose, hfence, hheading, hbreak, hquoted, hbullet, hordered, Option.isSome_none,
    Bool.false_eq_true, if_false]

end FirstLine

end Markup

end ClauseTemplates
