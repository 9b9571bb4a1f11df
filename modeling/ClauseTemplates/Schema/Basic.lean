namespace ClauseTemplates

structure Decorator where
  name : String
  arguments : List String
  deriving DecidableEq

/-- The text format that decorators give: the first argument of the first `Format` one. -/
def Decorator.format? (decorators : List Decorator) : Option String :=
  (decorators.find? (·.name == "Format")).bind (·.arguments.head?)

structure Property where
  name : String
  type : String
  array : Bool
  optional : Bool
  relationship : Bool
  decorators : List Decorator
  deriving DecidableEq

/-- A required single value without decorators. -/
def Property.plain (name type : String) : Property := ⟨name, type, false, false, false, []⟩

/-- Properties that the system writes have names with a dollar sign in front. -/
def Property.isSystem (p : Property) : Bool := p.name.toList.head? == some '$'

inductive DeclarationKind
  | concept
  | asset
  | participant
  | enum
  deriving DecidableEq

structure Declaration where
  name : String
  kind : DeclarationKind
  identifiedBy : Option String
  properties : List Property
  values : List String
  decorators : List Decorator
  deriving DecidableEq

namespace Declaration

def concept (name : String) (properties : List Property) : Declaration :=
  ⟨name, .concept, none, properties, [], []⟩

def enumeration (name : String) (values : List String) : Declaration :=
  ⟨name, .enum, none, [], values, []⟩

def isEnum (d : Declaration) : Bool := d.kind == .enum

def property? (d : Declaration) (name : String) : Option Property :=
  d.properties.find? (·.name == name)

end Declaration

def primitiveTypes : List String := ["String", "Boolean", "Integer", "Long", "Double", "DateTime"]

def isPrimitive (type : String) : Bool := primitiveTypes.contains type

/-- Declarations, sorted by name; no two have the same name. -/
structure Schema where
  declarations : List Declaration

namespace Schema

def find? (schema : Schema) (name : String) : Option Declaration :=
  schema.declarations.find? (·.name == name)

def isEnum (schema : Schema) (name : String) : Bool :=
  (schema.find? name).any Declaration.isEnum

/-- Declared and no enumeration. -/
def isRecord (schema : Schema) (name : String) : Bool :=
  (schema.find? name).any fun d => !d.isEnum

/-- Primitive or declared. -/
def knows (schema : Schema) (name : String) : Bool :=
  isPrimitive name || (schema.find? name).isSome

def insertSorted (d : Declaration) : List Declaration → List Declaration
  | [] => [d]
  | e :: rest =>
    if d.name = e.name then d :: rest
    else if d.name < e.name then d :: e :: rest
    else e :: insertSorted d rest

/-- Adds a declaration, in place of the one of the same name if there is one. -/
def insert (schema : Schema) (d : Declaration) : Schema :=
  ⟨insertSorted d schema.declarations⟩

end Schema

end ClauseTemplates
