import ClauseTemplates.Document.Basic
import ClauseTemplates.Schema.Basic

namespace ClauseTemplates

/-- The name by which a template shows the current value itself. -/
def thisName : String := "this"

/-- A place where a value is shown. The type, and what follows from it, is filled in when the
template is bound to a schema. -/
structure Variable where
  name : String
  type : Option String
  format : Option String
  /-- The identifying field of the record that the value refers to. -/
  identifiedBy : Option String
  decorators : List Decorator
  deriving DecidableEq

/-- A variable as it is written. -/
def Variable.unbound (name : String) (format : Option String) : Variable :=
  ⟨name, none, format, none, []⟩

structure EnumVariable where
  name : String
  type : String
  values : List String
  decorators : List Decorator
  deriving DecidableEq

structure Formula where
  name : String
  code : String
  /-- The names that the code reads, filled in when the template is analyzed. -/
  dependencies : List String
  deriving DecidableEq

/-- A part of a template. Blocks carry the type of the property they are named for once the
template is bound. -/
inductive Node
  | variable (v : Variable)
  | enumVariable (v : EnumVariable)
  | formula (f : Formula)
  /-- Reads a Boolean property, unless there is a condition to evaluate. -/
  | conditional (name : String) (condition : Option String) (whenTrue whenFalse : List Node)
  | optional (name : String) (type : Option String) (whenSome whenNone : List Node)
  | within (name : String) (type : Option String) (children : List Node)
  | list (name : String) (kind : ListKind) (type : Option String) (children : List Node)
  | join (name : String) (type : Option String) (separator : String) (children : List Node)
  | clause (name : String) (type : Option String) (src condition : Option String)
      (children : List Node)
  | contract (type : Option String) (children : List Node)
  | leaf (l : Leaf)
  | markup (frame : Frame) (children : List Node)

namespace Node

instance : Inhabited Node := ⟨.leaf .softbreak⟩

def text (s : String) : Node := .leaf (.text s)

/-- The lists of nodes inside a node, in the order of the document. -/
def childLists : Node → List (List Node)
  | .variable _ => []
  | .enumVariable _ => []
  | .formula _ => []
  | .conditional _ _ whenTrue whenFalse => [whenTrue, whenFalse]
  | .optional _ _ whenSome whenNone => [whenSome, whenNone]
  | .within _ _ children => [children]
  | .list _ _ _ children => [children]
  | .join _ _ _ children => [children]
  | .clause _ _ _ _ children => [children]
  | .contract _ children => [children]
  | .leaf _ => []
  | .markup _ children => [children]

end Node

/-- What a template is written for: a clause, or a contract made of clauses. -/
inductive TemplateKind
  | clause
  | contract
  deriving DecidableEq

end ClauseTemplates
