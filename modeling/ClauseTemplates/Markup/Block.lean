import ClauseTemplates.Markup.Inline
import ClauseTemplates.Markup.Line
import ClauseTemplates.Scan.Message

namespace ClauseTemplates.Markup

abbrev Reading := Except MarkupError

/-- The line and column of a character of a joined paragraph. -/
def placeIn : List Line → Nat → Nat × Nat
  | [], _ => (1, 1)
  | [line], offset => (line.number, line.column + min offset line.text.length)
  | line :: rest, offset =>
    if offset ≤ line.text.length then (line.number, line.column + offset)
    else placeIn rest (offset - (line.text.length + 1))

/-- Reads the lines of a paragraph or heading. -/
def readParagraphLines (lines : List Line) : Reading (List Node) :=
  match readInlines (Text.joinWith ['\n'] (lines.map (·.text))) with
  | .ok nodes => .ok nodes
  | .error f =>
    let (line, column) := placeIn lines f.start
    .error ⟨line, column, f.expectedTexts, f.message⟩

/-- The lines of a region and those after it. The first line, which opens it, is already gone;
regions of the same tag inside are counted. -/
def splitRegion? (tag : RegionTag) : Nat → List Line → Option (List Line × List Line)
  | _, [] => none
  | depth, line :: rest =>
    let keep (found : List Line × List Line) := (line :: found.1, found.2)
    if (regionOpening? line.text).any (·.tag == tag) then
      (splitRegion? tag (depth + 1) rest).map keep
    else if regionClosing? line.text == some tag then
      match depth with
      | 0 => some ([], rest)
      | depth + 1 => (splitRegion? tag depth rest).map keep
    else (splitRegion? tag depth rest).map keep

/-- The attributes of a clause region; other regions have none. -/
def clauseAttributes (line : Line) (opening : RegionOpening) :
    Reading (Option String × Option String) :=
  opening.attributes.foldlM
    (fun (src, condition) (name, value) =>
      if opening.tag = .clause ∧ name = "src" then .ok (some value, condition)
      else if opening.tag = .clause ∧ name = "condition" then .ok (src, some value)
      else
        .error (line.error ("unknown attribute \x60" ++ name ++ "\x60 on " ++ opening.tag.name)))
    (none, none)

/-- The content of the one item of the one list, which must be of the right kind. -/
def itemTemplate? (kind : ListKind) : List Node → Option (List Node)
  | [.markup (.list found _) [.markup .item children]] =>
    if found = kind then some children else none
  | _ => none

/-- The node of a region whose content is read. -/
def regionNode (line : Line) (opening : RegionOpening) (children : List Node) : Reading Node := do
  let (src, condition) ← clauseAttributes line opening
  let listNode (kind : ListKind) : Reading Node :=
    match itemTemplate? kind children with
    | some item => .ok (.list opening.name kind none item)
    | none =>
      .error (line.error (opening.tag.name ++ " must contain exactly one list item"))
  match opening.tag with
  | .clause => .ok (.clause opening.name none src condition children)
  | .ulist => listNode .bullet
  | .olist => listNode .ordered

def endsFence (line : Line) : Bool := Text.trimEnd line.text == Markdown.fence

/-- A fenced block after its first line: its node and the lines after it. -/
def readFence (line : Line) (info : List Char) (rest : List Line) :
    Reading (Node × List Line) :=
  match rest.span fun line => !endsFence line with
  | (_, []) => .error (line.error "unclosed code fence")
  | (body, _ :: after) =>
    let info := Text.trim info
    let text := String.ofList (Text.joinWith ['\n'] (body.map (·.text)))
    .ok (.leaf (.codeBlock (if info.isEmpty then none else some (String.ofList info)) text), after)

def unquoted (line : Line) : Line :=
  line.skip (if Text.startsWith Markdown.quoteMark line.text then 2 else 1)

/-- Empty lines stay inside an item only when indented lines follow. -/
def continuesItem (indent : List Char) (lines : List Line) : Bool :=
  (lines.find? fun line => !line.isBlank).any fun line => Text.startsWith indent line.text

/-- The later lines of an item without their indent, and the lines after it. -/
def splitItem (indent : List Char) : List Line → List Line × List Line
  | [] => ([], [])
  | line :: rest =>
    if Text.startsWith indent line.text then
      let (item, after) := splitItem indent rest
      (line.skip indent.length :: item, after)
    else if line.isBlank && continuesItem indent (line :: rest) then
      let (item, after) := splitItem indent rest
      ({ line with text := [] } :: item, after)
    else ([], line :: rest)

/-- The lines of each item of a list in front, and the lines after it. -/
def splitItems (kind : ListKind) : Nat → List Line → List (List Line) × List Line
  | 0, lines => ([], lines)
  | _ + 1, [] => ([], [])
  | fuel + 1, line :: rest =>
    match itemMark? kind line.text with
    | none => ([], line :: rest)
    | some length =>
      let (item, after) := splitItem (Markdown.itemIndent kind) rest
      let (items, after) := splitItems kind fuel after
      ((line.skip length :: item) :: items, after)

/-- A paragraph goes on to an empty line or one that starts a block. -/
def splitParagraph (lines : List Line) : List Line × List Line :=
  lines.span fun line => !line.isBlank && !startsBlock line.text

/-- Reads lines, with `read` for the lines inside quotes, items and regions. The first line is not
blank. -/
def readBlock (read : List Line → Reading (List Node)) (line : Line) (rest : List Line) :
    Reading (Node × List Line) := do
  let readList (kind : ListKind) : Reading (Node × List Line) := do
    let start := match kind with
      | .bullet => 1
      | .ordered => itemNumber line.text
    let (items, after) := splitItems kind (rest.length + 1) (line :: rest)
    let items ← items.mapM fun item => do pure (Node.markup .item (← read item))
    pure (.markup (.list kind start) items, after)
  if let some opening := regionOpening? line.text then
    match splitRegion? opening.tag 0 rest with
    | none => .error (line.error ("unclosed \x7b\x7b#" ++ opening.tag.name ++ "\x7d\x7d"))
    | some (inside, after) => do
      let children ← read inside
      pure (← regionNode line opening children, after)
  else if (regionClosing? line.text).isSome then
    .error (line.error "closing tag without a matching opening tag")
  else if let some info := Text.dropStart? Markdown.fence line.text then readFence line info rest
  else if let some level := headingLevel? line.text then do
    let children ← readParagraphLines [line.skip (level + 1)]
    pure (.markup (.heading (.ofNat level)) children, rest)
  else if isThematicBreak line.text then pure (.leaf .thematicBreak, rest)
  else if isQuoted line.text then do
    let (quote, after) := (line :: rest).span fun line => isQuoted line.text
    pure (.markup .blockQuote (← read (quote.map unquoted)), after)
  else if (itemMark? .bullet line.text).isSome then readList .bullet
  else if (itemMark? .ordered line.text).isSome then readList .ordered
  else do
    let (more, after) := splitParagraph rest
    pure (.markup .paragraph (← readParagraphLines (line :: more)), after)

/-- How many characters some lines hold, the ends of lines included. -/
def weight (lines : List Line) : Nat := (lines.map fun line => line.text.length + 1).foldr (· + ·) 0

/-- Reads blocks. What a block encloses weighs less than its lines, so more fuel than the weight of
the lines is enough. -/
def readBlocks : Nat → List Line → Reading (List Node)
  | 0, _ => .ok []
  | _ + 1, [] => .ok []
  | fuel + 1, line :: rest =>
    if line.isBlank then readBlocks fuel rest
    else do
      let (node, after) ← readBlock (readBlocks fuel) line rest
      pure (node :: (← readBlocks fuel after))

end ClauseTemplates.Markup
