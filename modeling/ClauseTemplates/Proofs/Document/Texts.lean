import ClauseTemplates.Document.Markdown

namespace ClauseTemplates.Markdown

/-- The texts of documents at a margin, one by one. -/
def texts (bullet : Char) (margin : List Char) (docs : List Doc) : List (List Char) :=
  docs.map (rendered bullet margin)

/-- Blocks behind others. -/
def laterText (margin : List Char) (blocks : List (List Char)) : List Char :=
  blocks.flatMap (blockSeparator margin ++ ·)

def blockText (margin : List Char) : List (List Char) → List Char
  | [] => []
  | block :: rest => block ++ laterText margin rest

/-- Items from a number on, with `lead` in front of the first. -/
def itemText (bullet : Char) (margin : List Char) (kind : ListKind) :
    List Char → Nat → List (List Char) → List Char
  | _, _, [] => []
  | lead, number, item :: rest =>
    lead ++ itemMark bullet kind number ++ item ++
      itemText bullet margin kind (newline margin) (number + 1) rest

def regionText (margin : List Char) (name : String) (src : Option String)
    (blocks : List (List Char)) : List Char :=
  clauseOpen name src ++ newline margin ++
    (if blocks.isEmpty then [] else blockText margin blocks ++ newline margin) ++ clauseClose

variable (bullet : Char) (margin : List Char)

theorem texts_append (docs more : List Doc) :
    texts bullet margin (docs ++ more) = texts bullet margin docs ++ texts bullet margin more :=
  List.map_append

theorem laterText_append (texts more : List (List Char)) :
    laterText margin (texts ++ more) = laterText margin texts ++ laterText margin more :=
  List.flatMap_append

theorem laterText_of_ne {texts : List (List Char)} (h : texts ≠ []) :
    laterText margin texts = blockSeparator margin ++ blockText margin texts := by
  cases texts with
  | nil => exact absurd rfl h
  | cons text texts => simp [laterText, blockText]

theorem blockText_append {texts : List (List Char)} (h : texts ≠ []) (more : List (List Char)) :
    blockText margin (texts ++ more) = blockText margin texts ++ laterText margin more := by
  cases texts with
  | nil => exact absurd rfl h
  | cons text texts => simp [blockText, laterText_append]

theorem laterBlocks_eq (docs : List Doc) :
    laterBlocks bullet margin docs = laterText margin (texts bullet margin docs) := by
  induction docs with
  | nil => rfl
  | cons doc docs ih => simp [laterBlocks, ih, laterText, texts]

theorem blocks_eq (docs : List Doc) :
    blocks bullet margin docs = blockText margin (texts bullet margin docs) := by
  cases docs with
  | nil => rfl
  | cons doc docs =>
    rw [blocks, laterBlocks_eq]
    rfl

theorem inlines_eq (docs : List Doc) :
    inlines bullet margin docs = (texts bullet margin docs).flatten := by
  induction docs with
  | nil => rfl
  | cons doc docs ih =>
    rw [inlines, ih]
    rfl

theorem itemText_later (number : Nat)
    (items : List (List Char)) :
    itemText bullet margin .bullet (newline margin) number items =
      items.flatMap fun item => newline margin ++ ([bullet, ' '] ++ item) := by
  induction items generalizing number with
  | nil => rfl
  | cons item items ih =>
    rw [itemText, ih]
    simp [itemMark]

theorem laterItems_eq (kind : ListKind) (number : Nat) (docs : List Doc) :
    laterItems bullet margin (margin ++ itemIndent kind) kind number docs =
      itemText bullet margin kind (newline margin) number
        (texts bullet (margin ++ itemIndent kind) docs) := by
  induction docs generalizing number with
  | nil => rfl
  | cons doc docs ih =>
    rw [laterItems, ih]
    rfl

theorem items_eq (kind : ListKind) (number : Nat) (docs : List Doc) :
    items bullet margin (margin ++ itemIndent kind) kind number docs =
      itemText bullet margin kind [] number (texts bullet (margin ++ itemIndent kind) docs) := by
  cases docs with
  | nil => rfl
  | cons doc docs =>
    rw [items, laterItems_eq]
    rfl

theorem rendered_clause (name : String) (src : Option String) (data : Option Json)
    (docs : List Doc) :
    rendered bullet margin (.node (.clause name src data) docs) =
      regionText margin name src (texts bullet margin docs) := by
  have h : (texts bullet margin docs).isEmpty = docs.isEmpty := by cases docs <;> rfl
  rw [rendered, regionText, blocks_eq, h]

theorem render_singleton (doc : Doc) :
    render bullet [doc] = String.ofList (rendered bullet [] doc) := by
  rw [render, blocks, laterBlocks, List.append_nil]

/-- The margin of the lines inside an element. -/
def innerMargin (margin : List Char) : Frame → List Char
  | .blockQuote => margin ++ quoteMark
  | .list kind _ => margin ++ itemIndent kind
  | _ => margin

/-- The text of an element, from the texts inside. -/
def frameText (bullet : Char) (margin : List Char) (frame : Frame) (inner : List (List Char)) :
    List Char :=
  match frame with
  | .document _ => blockText margin inner
  | .item => blockText margin inner
  | .paragraph => inner.flatten
  | .heading level => headingMark level.toNat ++ inner.flatten
  | .blockQuote => quoteMark ++ blockText (margin ++ quoteMark) inner
  | .list kind start => itemText bullet margin kind [] start.toNat inner
  | .clause name src _ => regionText margin name src inner
  | .emph => '*' :: inner.flatten ++ ['*']
  | .strong => '*' :: '*' :: inner.flatten ++ ['*', '*']

theorem rendered_node (frame : Frame) (docs : List Doc) :
    rendered bullet margin (.node frame docs) =
      frameText bullet margin frame (texts bullet (innerMargin margin frame) docs) := by
  cases frame with
  | clause name src data => exact rendered_clause bullet margin name src data docs
  | _ => simp [rendered, frameText, innerMargin, blocks_eq, inlines_eq, items_eq]

end ClauseTemplates.Markdown
