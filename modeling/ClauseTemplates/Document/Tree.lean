import ClauseTemplates.Document.Basic

namespace ClauseTemplates

namespace ListKind

def name : ListKind → String
  | .bullet => "bullet"
  | .ordered => "ordered"

def ofName? (name : String) : Option ListKind :=
  if name = "bullet" then some .bullet
  else if name = "ordered" then some .ordered
  else none

end ListKind

/-- The fields of an element besides its kind. -/
def Leaf.fields : Leaf → List (String × Json)
  | .codeBlock info t => [("info", Json.ofString? info), ("text", .str t)]
  | .thematicBreak => []
  | .text t => [("text", .str t)]
  | .code t => [("text", .str t)]
  | .softbreak => []
  | .linebreak => []
  | .fragment t => [("text", .str t)]
  | .formula name value => [("name", .str name), ("value", .str value)]

/-- The fields of an element besides its kind and the elements inside. The record of a document is
left out where there is none, that of a clause is null. -/
def Frame.fields : Frame → List (String × Json)
  | .document (some data) => [("data", data)]
  | .heading level => [("level", .int level.toNat)]
  | .list kind start => [("list_kind", .str kind.name), ("start", .int start.toNat)]
  | .clause name src data =>
    [("name", .str name), ("src", Json.ofString? src), ("data", data.getD .null)]
  | _ => []

def natBelow? (limit : Nat) (fields : Json.Fields) (name : String) : Option Nat :=
  match fields.get? name with
  | some (.int (.ofNat n)) => if n < limit then some n else none
  | _ => none

def recordOf? (fields : Json.Fields) : Option Json :=
  match fields.get? "data" with
  | some .null => none
  | other => other

/-- The element of a kind with nothing inside, if there is such a kind. -/
def Leaf.ofFields? (kind : String) (fields : Json.Fields) : Option Leaf :=
  if kind = "code_block" then do
    some (.codeBlock (← fields.optionalString? "info") (← fields.string? "text"))
  else if kind = "thematic_break" then some .thematicBreak
  else if kind = "text" then (fields.string? "text").map .text
  else if kind = "code" then (fields.string? "text").map .code
  else if kind = "softbreak" then some .softbreak
  else if kind = "linebreak" then some .linebreak
  else if kind = "fragment" then (fields.string? "text").map .fragment
  else if kind = "formula" then do
    some (.formula (← fields.string? "name") (← fields.string? "value"))
  else none

/-- The element of a kind with others inside, if there is such a kind. -/
def Frame.ofFields? (kind : String) (fields : Json.Fields) : Option Frame :=
  if kind = "document" then some (.document (recordOf? fields))
  else if kind = "paragraph" then some .paragraph
  else if kind = "heading" then (natBelow? (power 2 8) fields "level").map fun n => .heading (.ofNat n)
  else if kind = "block_quote" then some .blockQuote
  else if kind = "list" then do
    let kind ← (fields.string? "list_kind").bind ListKind.ofName?
    some (.list kind (.ofNat (← natBelow? (power 2 32) fields "start")))
  else if kind = "item" then some .item
  else if kind = "clause" then do
    some (.clause (← fields.string? "name") (← fields.optionalString? "src") (recordOf? fields))
  else if kind = "emph" then some .emph
  else if kind = "strong" then some .strong
  else none

namespace Doc

mutual

/-- A document as data: objects with the kind of each element. -/
def toJson : Doc → Json
  | .leaf l => Json.record (("kind", .str l.kind) :: l.fields)
  | .node frame children =>
    Json.record (("kind", .str frame.kind) :: ("children", .arr (toJsonAll children)) ::
      frame.fields)

def toJsonAll : List Doc → List Json
  | [] => []
  | doc :: rest => toJson doc :: toJsonAll rest

end

mutual

/-- Reads a document from its data, objects with the kind of each element. Other fields than those
of an element are ignored. An element may also be given as the list of its kind and its fields in
their order, which is not read here: no document is written so. -/
def ofJson? : Json → Option Doc
  | .obj fields =>
    match Json.Fields.string? "kind" fields with
    | none => none
    | some kind =>
      match Leaf.ofFields? kind fields with
      | some l => some (.leaf l)
      | none => do some (.node (← Frame.ofFields? kind fields) (← childrenOf? fields))
  | _ => none

def childrenOf? : List (String × Json) → Option (List Doc)
  | [] => none
  | (name, value) :: rest => if name = "children" then itemsOf? value else childrenOf? rest

def itemsOf? : Json → Option (List Doc)
  | .arr items => ofJsonAll? items
  | _ => none

def ofJsonAll? : List Json → Option (List Doc)
  | [] => some []
  | item :: rest => do
    let doc ← ofJson? item
    some (doc :: (← ofJsonAll? rest))

end

end Doc

end ClauseTemplates
