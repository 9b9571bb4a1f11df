import ClauseTemplates.Schema.Builtin
import ClauseTemplates.Template.Node

namespace ClauseTemplates

/-- A name in a template that does not agree with the schema. -/
inductive BindError
  | unknownProperty (name : String)
  | notArray (name : String)
  | notOptional (name : String)
  | unknownType (name : String)
  | arrayNotAllowed (name : String)
  | notBoolean (name : String)
  deriving DecidableEq

namespace BindError

/-- The property or type that the error is about. -/
def name : BindError → String
  | unknownProperty name => name
  | notArray name => name
  | notOptional name => name
  | unknownType name => name
  | arrayNotAllowed name => name
  | notBoolean name => name

def message : BindError → String
  | unknownProperty name => "unknown property \x60" ++ name ++ "\x60"
  | notArray name => "property \x60" ++ name ++ "\x60 is not an array"
  | notOptional name => "property \x60" ++ name ++ "\x60 is not optional"
  | unknownType name => "unknown type \x60" ++ name ++ "\x60"
  | arrayNotAllowed name =>
    "array property \x60" ++ name ++ "\x60 can only be used in a list or join block"
  | notBoolean name => "property \x60" ++ name ++ "\x60 is not a Boolean"

end BindError

/-- What a name stands for. -/
structure Target where
  type : String
  array : Bool
  optional : Bool
  relationship : Bool
  decorators : List Decorator
  deriving DecidableEq

namespace Target

def declaredDecorators (schema : Schema) (type : String) : List Decorator :=
  ((schema.find? type).map (·.decorators)).getD []

/-- A single value of a type. -/
def ofType (schema : Schema) (type : String) : Target :=
  ⟨type, false, false, false, declaredDecorators schema type⟩

/-- The decorators of the property come before those of its type, and so count more. -/
def ofProperty (schema : Schema) (p : Property) : Target :=
  ⟨p.type, p.array, p.optional, p.relationship, p.decorators ++ declaredDecorators schema p.type⟩

/-- The value inside an array or an optional property. -/
def element (t : Target) : Target := { t with array := false, optional := false }

end Target

namespace Binding

abbrev Result := Except BindError

/-- What a name stands for in a scope; there is none inside a branch that stands for an absent
value. -/
def resolve (schema : Schema) (scope : Option Target) (name : String) : Result Target :=
  match scope with
  | none => .error (.unknownProperty name)
  | some t =>
    if name = thisName then .ok t
    else if t.array then .error (.unknownProperty name)
    else
      match (schema.find? t.type).bind (·.property? name) with
      | some p => .ok (Target.ofProperty schema p)
      | none => .error (.unknownProperty name)

def checkType (schema : Schema) (type : String) : Result Unit :=
  if schema.knows type then .ok () else .error (.unknownType type)

/-- The identifying field of records that name none. -/
def defaultIdentifier : String := "$identifier"

def identifierOf (schema : Schema) (type : String) : String :=
  ((schema.find? type).bind (·.identifiedBy)).getD defaultIdentifier

/-- Variables of an enumeration show one of its values. A format in the template counts more than
one in the schema. -/
def bindVariable (schema : Schema) (scope : Option Target) (v : Variable) : Result Node := do
  let target ← resolve schema scope v.name
  if target.array then .error (.arrayNotAllowed v.name)
  match (schema.find? target.type).filter Declaration.isEnum with
  | some d => .ok (.enumVariable ⟨v.name, target.type, d.values, target.decorators⟩)
  | none =>
    checkType schema target.type
    .ok (.variable
      { name := v.name
        type := some target.type
        format := v.format.or (Decorator.format? target.decorators)
        identifiedBy :=
          if target.relationship then some (identifierOf schema target.type) else none
        decorators := target.decorators })

def checkBoolean (schema : Schema) (scope : Option Target) (name : String) :
    Result Unit := do
  let target ← resolve schema scope name
  if target.array || target.type != "Boolean" then .error (.notBoolean name)

/-- The property of a block over its elements. -/
def resolveArray (schema : Schema) (scope : Option Target) (name : String) :
    Result Target := do
  let target ← resolve schema scope name
  if !target.array then .error (.notArray name)
  checkType schema target.type
  pure target

/-- The property of a block over a single value. -/
def resolveSingle (schema : Schema) (scope : Option Target) (name : String) :
    Result Target := do
  let target ← resolve schema scope name
  if target.array then .error (.arrayNotAllowed name)
  checkType schema target.type
  pure target

def resolveOptional (schema : Schema) (scope : Option Target) (name : String) :
    Result Target := do
  let target ← resolve schema scope name
  if !target.optional then .error (.notOptional name)
  pure target

mutual

/-- Fills in the types of a node whose names are looked up in a scope. -/
def bindNode (schema : Schema) (scope : Option Target) : Node → Result Node
  | .variable v => bindVariable schema scope v
  | .enumVariable v => .ok (.enumVariable v)
  | .formula f => .ok (.formula f)
  | .conditional name condition whenTrue whenFalse => do
    if condition.isNone then checkBoolean schema scope name
    let whenTrue ← bindNodes schema scope whenTrue
    pure (.conditional name condition whenTrue (← bindNodes schema none whenFalse))
  | .optional name _ whenSome whenNone => do
    let target ← resolveOptional schema scope name
    let whenSome ← bindNodes schema (some { target with optional := false }) whenSome
    pure (.optional name (some target.type) whenSome (← bindNodes schema none whenNone))
  | .within name _ children => do
    let target ← resolveSingle schema scope name
    pure (.within name (some target.type) (← bindNodes schema (some target.element) children))
  | .list name kind _ children => do
    let target ← resolveArray schema scope name
    pure (.list name kind (some target.type) (← bindNodes schema (some target.element) children))
  | .join name _ separator children => do
    let target ← resolveArray schema scope name
    pure (.join name (some target.type) separator
      (← bindNodes schema (some target.element) children))
  | .clause name _ src condition children => do
    let target ← resolveSingle schema scope name
    pure (.clause name (some target.type) src condition
      (← bindNodes schema (some target.element) children))
  | .contract _ children => do
    pure (.contract (scope.map (·.type)) (← bindNodes schema scope children))
  | .leaf l => .ok (.leaf l)
  | .markup frame children => do pure (.markup frame (← bindNodes schema scope children))

def bindNodes (schema : Schema) (scope : Option Target) : List Node → Result (List Node)
  | [] => .ok []
  | node :: rest => do
    let node ← bindNode schema scope node
    pure (node :: (← bindNodes schema scope rest))

end

/-- Binds nodes that show a record of a type. -/
def bindRecord (schema : Schema) (type : String) (nodes : List Node) : Result (List Node) :=
  if schema.isRecord type then bindNodes schema (some (Target.ofType schema type)) nodes
  else .error (.unknownType type)

end Binding

end ClauseTemplates
