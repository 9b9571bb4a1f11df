import ClauseTemplates.Document.Basic
import ClauseTemplates.Text.Blank
import ClauseTemplates.Text.Quoted

namespace ClauseTemplates.Markdown

/-- What stands in front of quoted lines. -/
def quoteMark : List Char := ['>', ' ']

def thematicBreak : List Char := ['-', '-', '-']

def fence : List Char := ['\x60', '\x60', '\x60']

def formulaOpen : List Char := ['\x7b', '\x7b', '%']

def formulaClose : List Char := ['%', '\x7d', '\x7d']

def clauseMark : List Char := ['\x7b', '\x7b', '#', 'c', 'l', 'a', 'u', 's', 'e', ' ']

def sourceMark : List Char := [' ', 's', 'r', 'c', '=', '\x22']

def clauseClose : List Char :=
  ['\x7b', '\x7b', '/', 'c', 'l', 'a', 'u', 's', 'e', '\x7d', '\x7d']

/-- What stands in front of the later lines of a list item. -/
def itemIndent : ListKind → List Char
  | .bullet => [' ', ' ']
  | .ordered => [' ', ' ', ' ']

/-- A line break inside a block; `margin` stands in front of every line. -/
def newline (margin : List Char) : List Char := '\n' :: margin

/-- The empty line between two blocks, without blanks at its end. -/
def blockSeparator (margin : List Char) : List Char :=
  '\n' :: Text.trimEnd margin ++ '\n' :: margin

def clauseOpen (name : String) (src : Option String) : List Char :=
  let source := match src with
    | some src => sourceMark ++ src.toList ++ ['\x22']
    | none => []
  clauseMark ++ name.toList ++ source ++ ['\x7d', '\x7d']

def codeBlock (info : Option String) (text : String) (margin : List Char) : List Char :=
  fence ++ (info.getD "").toList ++
    (Text.lines text.toList).flatMap (fun line => newline margin ++ line) ++
    newline margin ++ fence

/-- The number of an ordered list item and the blank after it. -/
def orderedMark (number : Nat) : List Char := Decimal.digitChars number ++ ['.', ' ']

def headingMark (level : Nat) : List Char := List.replicate level '#' ++ [' ']

/-- The mark of the item at a place of a list. -/
def itemMark (bullet : Char) (kind : ListKind) (number : Nat) : List Char :=
  match kind with
  | .bullet => [bullet, ' ']
  | .ordered => orderedMark number

def leafText (margin : List Char) : Leaf → List Char
  | .codeBlock info text => codeBlock info text margin
  | .thematicBreak => thematicBreak
  | .text text => Text.escaped text.toList
  | .code text => '\x60' :: text.toList ++ ['\x60']
  | .softbreak => newline margin
  | .linebreak => '\\' :: newline margin
  | .fragment text => text.toList
  | .formula _ value => formulaOpen ++ ' ' :: value.toList ++ ' ' :: formulaClose

mutual

/-- The markup of a document; `margin` stands in front of all lines but its first. -/
def rendered (bullet : Char) (margin : List Char) : Doc → List Char
  | .leaf l => leafText margin l
  | .node (.document _) children => blocks bullet margin children
  | .node .item children => blocks bullet margin children
  | .node .paragraph children => inlines bullet margin children
  | .node (.heading level) children => headingMark level.toNat ++ inlines bullet margin children
  | .node .blockQuote children => quoteMark ++ blocks bullet (margin ++ quoteMark) children
  | .node (.list kind start) children =>
    items bullet margin (margin ++ itemIndent kind) kind start.toNat children
  | .node (.clause name src _) children =>
    clauseOpen name src ++ newline margin ++
      (if children.isEmpty then [] else blocks bullet margin children ++ newline margin) ++
      clauseClose
  | .node .emph children => '*' :: inlines bullet margin children ++ ['*']
  | .node .strong children => '*' :: '*' :: inlines bullet margin children ++ ['*', '*']

/-- Blocks with an empty line between them. -/
def blocks (bullet : Char) (margin : List Char) : List Doc → List Char
  | [] => []
  | doc :: rest => rendered bullet margin doc ++ laterBlocks bullet margin rest

def laterBlocks (bullet : Char) (margin : List Char) : List Doc → List Char
  | [] => []
  | doc :: rest =>
    blockSeparator margin ++ rendered bullet margin doc ++ laterBlocks bullet margin rest

def inlines (bullet : Char) (margin : List Char) : List Doc → List Char
  | [] => []
  | doc :: rest => rendered bullet margin doc ++ inlines bullet margin rest

/-- Items, each on a line of its own with its mark; `inner` stands in front of their later
lines. -/
def items (bullet : Char) (margin inner : List Char) (kind : ListKind) (number : Nat) :
    List Doc → List Char
  | [] => []
  | doc :: rest =>
    itemMark bullet kind number ++ rendered bullet inner doc ++
      laterItems bullet margin inner kind (number + 1) rest

def laterItems (bullet : Char) (margin inner : List Char) (kind : ListKind) (number : Nat) :
    List Doc → List Char
  | [] => []
  | doc :: rest =>
    newline margin ++ itemMark bullet kind number ++ rendered bullet inner doc ++
      laterItems bullet margin inner kind (number + 1) rest

end

def render (bullet : Char) (docs : List Doc) : String := String.ofList (blocks bullet [] docs)

end ClauseTemplates.Markdown
