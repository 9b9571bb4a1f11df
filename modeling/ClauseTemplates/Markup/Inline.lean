import ClauseTemplates.Document.Markdown
import ClauseTemplates.Scan.Repetition
import ClauseTemplates.Template.Node
import ClauseTemplates.Text.Word

namespace ClauseTemplates.Markup

open Scanner

/-- What stands between the items of a join unless it says otherwise. -/
def defaultSeparator : String := ", "

def chars (s : String) : Scanner Char Unit := exactly s.toList

/-- A name of a property. The word `else` is none. -/
def ident : Scanner Char String :=
  (do
    let first ← satisfying Text.isNameStart
    let rest ← many (satisfying Text.isNamePart) 0
    pure (first :: rest)).tryMap fun name =>
      if name = "else".toList then .error "\x60else\x60 outside of a block"
      else .ok (String.ofList name)

/-- Text between double quotes, as it stands. -/
def quotedText : Scanner Char String := do
  chars "\x22"
  let text ← many (satisfying (· != '\x22')) 0
  chars "\x22"
  pure (String.ofList text)

def spaces (least : Nat) : Scanner Char Unit := do
  let _ ← many (exactly [' ']) least
  pure ()

/-- The start of a tag up to its argument. -/
def openTag (keyword : String) : Scanner Char Unit := do
  chars "\x7b\x7b#"
  chars keyword
  spaces 1

def tagEnd : Scanner Char Unit := do
  spaces 0
  chars "\x7d\x7d"

def closeTag (keyword : String) : Scanner Char Unit := do
  chars "\x7b\x7b/"
  chars keyword
  chars "\x7d\x7d"

/-- Nodes that end a run of text; text next to text is one node. -/
def joinText : List Node → List Node
  | [] => []
  | .leaf (.text s) :: rest =>
    match joinText rest with
    | .leaf (.text t) :: rest => .leaf (.text (s ++ t)) :: rest
    | rest => .leaf (.text s) :: rest
  | node :: rest => node :: joinText rest

def nonempty (inlines : Scanner Char (List Node)) : Scanner Char (List Node) :=
  inlines.tryMap fun nodes => if nodes.isEmpty then .error "expected content" else .ok nodes

/-- The second branch of a block, empty if there is none. -/
def elseBranch (inlines : Scanner Char (List Node)) : Scanner Char (List Node) := do
  let branch ← optional do
    chars "\x7b\x7belse\x7d\x7d"
    inlines
  pure (branch.getD [])

def formula : Scanner Char Node := do
  exactly Markdown.formulaOpen
  let code ← takeUntil (exactly Markdown.formulaClose)
  pure (.formula ⟨"", String.ofList (Text.trim code), []⟩)

/-- The name of a Boolean property, or a condition to evaluate. -/
def guard : Scanner Char (String × Option String) :=
  orElse
    (do chars "condition="; pure ("", some (← quotedText)))
    (do pure (← ident, none))

def conditional (inlines : Scanner Char (List Node)) : Scanner Char Node := do
  openTag "if"
  let (name, condition) ← guard
  tagEnd
  let whenTrue ← inlines
  let whenFalse ← elseBranch inlines
  closeTag "if"
  pure (.conditional name condition whenTrue whenFalse)

def optionalBlock (inlines : Scanner Char (List Node)) : Scanner Char Node := do
  openTag "optional"
  let name ← ident
  tagEnd
  let whenSome ← inlines
  let whenNone ← elseBranch inlines
  closeTag "optional"
  pure (.optional name none whenSome whenNone)

def withinBlock (inlines : Scanner Char (List Node)) : Scanner Char Node := do
  openTag "with"
  let name ← ident
  tagEnd
  let children ← inlines
  closeTag "with"
  pure (.within name none children)

def joinBlock (inlines : Scanner Char (List Node)) : Scanner Char Node := do
  openTag "join"
  let name ← ident
  let separator ← optional do
    spaces 1
    chars "separator="
    quotedText
  tagEnd
  let children ← inlines
  closeTag "join"
  pure (.join name none (separator.getD defaultSeparator) children)

def inlineVariable : Scanner Char Node := do
  chars "\x7b\x7b"
  spaces 0
  let name ← ident
  let format ← optional do
    spaces 1
    chars "as"
    spaces 1
    quotedText
  tagEnd
  pure (.variable (.unbound name format))

def linebreak : Scanner Char Node := do
  chars "\\"
  chars "\n"
  pure (.leaf .linebreak)

def escapedChar : Scanner Char Node := do
  chars "\\"
  let c ← satisfying fun _ => true
  pure (.text (String.ofList [c]))

def strong (inlines : Scanner Char (List Node)) : Scanner Char Node := do
  chars "**"
  let children ← nonempty inlines
  chars "**"
  pure (.markup .strong children)

def emph (inlines : Scanner Char (List Node)) : Scanner Char Node := do
  chars "*"
  let children ← nonempty inlines
  chars "*"
  pure (.markup .emph children)

def code : Scanner Char Node := do
  chars "\x60"
  let text ← many (satisfying (· != '\x60')) 0
  chars "\x60"
  pure (.leaf (.code (String.ofList text)))

def softbreak : Scanner Char Node := do
  chars "\n"
  pure (.leaf .softbreak)

/-- A single brace is text, two of them must open a tag. -/
def brace : Scanner Char Node :=
  (do
    chars "\x7b"
    optional (chars "\x7b")).tryMap fun
      | none => .ok (.text "\x7b")
      | some _ => .error "unknown tag"

def plainText : Scanner Char Node := do
  let text ← many
    (satisfying fun c => c != '\\' && c != '*' && c != '\x60' && c != '\x7b' && c != '\n') 1
  pure (.text (String.ofList text))

/-- One inline node, over the grammar of what blocks and emphasis enclose. -/
def inlineNode (inlines : Scanner Char (List Node)) : Scanner Char Node :=
  choice
    [formula, conditional inlines, optionalBlock inlines, withinBlock inlines, joinBlock inlines,
     inlineVariable, linebreak, escapedChar, strong inlines, emph inlines, code, softbreak, brace,
     plainText]

/-- Inline markup with fewer than `fuel` levels of blocks and emphasis. Each level reads a
character, so one more than the length of the text is enough. -/
def inlines : Nat → Scanner Char (List Node)
  | 0 => fun c => .failure (unexpected [] c)
  | fuel + 1 => do pure (joinText (← many (inlineNode (inlines fuel)) 0))

/-- Reads the text of a paragraph or heading. -/
def readInlines (text : List Char) : Except (Scan.Failure Char) (List Node) :=
  run (do let nodes ← inlines (text.length + 1); endOfInput; pure nodes) text

end ClauseTemplates.Markup
