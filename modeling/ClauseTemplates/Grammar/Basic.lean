import ClauseTemplates.Document.Markdown
import ClauseTemplates.Format.Scalar
import ClauseTemplates.Grammar.Capture

namespace ClauseTemplates

mutual

/-- The texts that a part of a template is rendered to, and the slots they show. -/
inductive Grammar
  | text (chars : List Char)
  | seq (first second : Grammar)
  /-- The second is tried only where the first does not match. -/
  | either (first second : Grammar)
  /-- A branch that tells the value of a Boolean property. -/
  | flagged (branch : Grammar) (name : String) (flag : Bool)
  | slot (name : String) (value : ValueGrammar)
  /-- The result of a formula, whatever it is. -/
  | formula
  /-- The mark of an ordered list item with any number. -/
  | orderedMark
  | optionally (body : Grammar)

/-- The texts that show a value. -/
inductive ValueGrammar
  | scalar (program : ScalarProgram)
  /-- The quoted identifier of a record of a type. -/
  | reference (type : String)
  | enum (values : List String)
  /-- A record shown through the template of its type. -/
  | compound (type : String)
  | record (type : String) (identifier : Option String) (body : Grammar)
  /-- A single value shown by a template: itself if it shows the current value, otherwise a record
  of its type, if that is given. -/
  | element (type : Option String) (body : Grammar)
  | items (separator : List Char) (nonempty : Bool) (item : ValueGrammar)

end

namespace Grammar

def nothing : Grammar := .text []

def concat : List Grammar → Grammar
  | [] => nothing
  | g :: rest => .seq g (concat rest)

end Grammar

/-- Longer values come first, and values of one length stay in order. -/
def longestFirst : List String → List String
  | [] => []
  | value :: rest => insert value (longestFirst rest)
where
  insert (value : String) : List String → List String
    | [] => [value]
    | v :: rest =>
      if value.length < v.length then v :: insert value rest else value :: v :: rest

end ClauseTemplates
