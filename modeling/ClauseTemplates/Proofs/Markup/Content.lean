import ClauseTemplates.Proofs.Effects
import ClauseTemplates.Proofs.Markup.Splitting

namespace ClauseTemplates.Markup

/-- What a block is made of: how its lines are divided before anything inside it is read. -/
inductive Content
  | region (opening : RegionOpening) (inside : List Line)
  /-- A block that is read whole, without lines or text inside. -/
  | whole (node : Node)
  | heading (level : Nat) (title : Line)
  | quote (inside : List Line)
  | list (kind : ListKind) (start : UInt32) (items : List (List Line))
  | paragraph (lines : List Line)

namespace Content

/-- The lines that are read as blocks of their own. -/
def insides : Content → List (List Line)
  | .region _ inside => [inside]
  | .whole _ => []
  | .heading _ _ => []
  | .quote inside => [inside]
  | .list _ _ items => items
  | .paragraph _ => []

/-- The lines that are read as one text. -/
def text? : Content → Option (List Line)
  | .heading _ title => some [title]
  | .paragraph lines => some lines
  | _ => none

/-- The node of a block that begins with a line. -/
def node (read : List Line → Reading (List Node)) (line : Line) : Content → Reading Node
  | .region opening inside => do regionNode line opening (← read inside)
  | .whole node => .ok node
  | .heading level title => do
    pure (.markup (.heading (.ofNat level)) (← readParagraphLines [title]))
  | .quote inside => do pure (.markup .blockQuote (← read inside))
  | .list kind start items => do pure (.markup (.list kind start) (← readItems read items))
  | .paragraph lines => do pure (.markup .paragraph (← readParagraphLines lines))

end Content

def listContent (kind : ListKind) (line : Line) (rest : List Line) : Content × List Line :=
  let (items, after) := splitItems kind (rest.length + 1) (line :: rest)
  (.list kind (startOf kind line.text) items, after)

/-- Divides the lines in front into a block and what stands behind it. -/
def contentOf (line : Line) (rest : List Line) : Reading (Content × List Line) :=
  if let some opening := regionOpening? line.text then
    match splitRegion? opening.tag 0 rest with
    | none => .error (line.error ("unclosed \x7b\x7b#" ++ opening.tag.name ++ "\x7d\x7d"))
    | some (inside, after) => .ok (.region opening inside, after)
  else if (regionClosing? line.text).isSome then
    .error (line.error "closing tag without a matching opening tag")
  else if let some info := Text.dropStart? Markdown.fence line.text then do
    let (node, after) ← readFence line info rest
    pure (.whole node, after)
  else if let some level := headingLevel? line.text then
    .ok (.heading level (line.skip (level + 1)), rest)
  else if isThematicBreak line.text then .ok (.whole (.leaf .thematicBreak), rest)
  else if isQuoted line.text then
    let (quote, after) := (line :: rest).span fun line => isQuoted line.text
    .ok (.quote (quote.map unquoted), after)
  else if (itemMark? .bullet line.text).isSome then .ok (listContent .bullet line rest)
  else if (itemMark? .ordered line.text).isSome then .ok (listContent .ordered line rest)
  else
    let (more, after) := splitParagraph rest
    .ok (.paragraph (line :: more), after)

theorem bind_made {α : Type} (x : Reading α) (make : α → Reading Node) (after : List Line) :
    (do let a ← x; pure (← make a, after)) =
      (do let node ← x >>= make; pure (node, after) : Reading (Node × List Line)) := by
  cases x <;> rfl

/-- A block is read by dividing its lines first. -/
theorem readBlock_eq (read : List Line → Reading (List Node)) (line : Line) (rest : List Line) :
    readBlock read line rest = (do
      let (content, after) ← contentOf line rest
      pure (← content.node read line, after)) := by
  unfold readBlock contentOf
  cases regionOpening? line.text with
  | some opening =>
    dsimp only
    cases splitRegion? opening.tag 0 rest with
    | none => rfl
    | some found => exact bind_made (read found.1) (regionNode line opening) found.2
  | none =>
    dsimp only
    by_cases hclose : (regionClosing? line.text).isSome = true
    · rw [if_pos hclose, if_pos hclose]
      rfl
    rw [if_neg hclose, if_neg hclose]
    cases Text.dropStart? Markdown.fence line.text with
    | some info =>
      dsimp only
      cases readFence line info rest <;> rfl
    | none =>
      dsimp only
      cases headingLevel? line.text with
      | some level =>
        exact bind_made (readParagraphLines [line.skip (level + 1)])
          (fun children => .ok (.markup (.heading (.ofNat level)) children)) rest
      | none =>
        dsimp only
        split_ifs
        · rfl
        · exact bind_made (read _) (fun children => .ok (.markup .blockQuote children)) _
        · exact bind_made (readItems read _) (fun items => .ok (.markup (.list .bullet _) items)) _
        · exact bind_made (readItems read _) (fun items => .ok (.markup (.list .ordered _) items)) _
        · exact bind_made (readParagraphLines _) (fun children => .ok (.markup .paragraph children)) _

/-- Reading goes on behind the block in front. -/
theorem readBlocks_cons (fuel : Nat) {line : Line} (rest : List Line) (hfull : line.isBlank = false) :
    readBlocks (fuel + 1) (line :: rest) = (do
      let (content, after) ← contentOf line rest
      let node ← content.node (readBlocks fuel) line
      pure (node :: (← readBlocks fuel after))) := by
  rw [readBlocks, hfull, if_neg Bool.false_ne_true, readBlock_eq, bind_assoc]
  simp only [bind_assoc, pure_bind]

end ClauseTemplates.Markup
