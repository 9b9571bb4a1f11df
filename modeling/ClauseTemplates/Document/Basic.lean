import ClauseTemplates.Json.Basic

namespace ClauseTemplates

inductive ListKind
  | bullet
  | ordered
  deriving DecidableEq

/-- An element that holds others. -/
inductive Frame
  /-- A drafted document carries the record it was drafted from. -/
  | document (data : Option Json)
  | paragraph
  | heading (level : UInt8)
  | blockQuote
  | list (kind : ListKind) (start : UInt32)
  | item
  /-- A delimited clause region; a drafted one carries its record. -/
  | clause (name : String) (src : Option String) (data : Option Json)
  | emph
  | strong

/-- An element without others inside. -/
inductive Leaf
  | codeBlock (info : Option String) (text : String)
  | thematicBreak
  | text (text : String)
  | code (text : String)
  | softbreak
  | linebreak
  /-- Text that is written as it stands. -/
  | fragment (text : String)
  /-- The result of a formula. -/
  | formula (name value : String)
  deriving DecidableEq

/-- A document, or a part of one. -/
inductive Doc
  | leaf (l : Leaf)
  | node (frame : Frame) (children : List Doc)

namespace Frame

def kind : Frame → String
  | .document _ => "document"
  | .paragraph => "paragraph"
  | .heading _ => "heading"
  | .blockQuote => "block_quote"
  | .list _ _ => "list"
  | .item => "item"
  | .clause _ _ _ => "clause"
  | .emph => "emph"
  | .strong => "strong"

def isBlock : Frame → Bool
  | .emph => false
  | .strong => false
  | _ => true

/-- The record that a drafted document or clause carries. -/
def data? : Frame → Option Json
  | .document data => data
  | .clause _ _ data => data
  | _ => none

end Frame

namespace Leaf

def kind : Leaf → String
  | .codeBlock _ _ => "code_block"
  | .thematicBreak => "thematic_break"
  | .text _ => "text"
  | .code _ => "code"
  | .softbreak => "softbreak"
  | .linebreak => "linebreak"
  | .fragment _ => "fragment"
  | .formula _ _ => "formula"

def isBlock : Leaf → Bool
  | .codeBlock _ _ => true
  | .thematicBreak => true
  | _ => false

def plain : Leaf → List Char
  | .codeBlock _ t => t.toList
  | .thematicBreak => []
  | .text t => t.toList
  | .code t => t.toList
  | .softbreak => ['\n']
  | .linebreak => ['\n']
  | .fragment t => t.toList
  | .formula _ v => v.toList

end Leaf

namespace Doc

def kind : Doc → String
  | .leaf l => l.kind
  | .node frame _ => frame.kind

def isBlock : Doc → Bool
  | .leaf l => l.isBlock
  | .node frame _ => frame.isBlock

def data? : Doc → Option Json
  | .leaf _ => none
  | .node frame _ => frame.data?

def children : Doc → List Doc
  | .leaf _ => []
  | .node _ children => children

mutual

/-- The text of all leaves without any markup. -/
def plain : Doc → List Char
  | .leaf l => l.plain
  | .node _ children => plainAll children

def plainAll : List Doc → List Char
  | [] => []
  | doc :: rest => plain doc ++ plainAll rest

end

def plainText (doc : Doc) : String := String.ofList doc.plain

end Doc

end ClauseTemplates
