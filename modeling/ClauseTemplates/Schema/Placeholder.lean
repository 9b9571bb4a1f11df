import ClauseTemplates.Json.Basic
import ClauseTemplates.Schema.Builtin

namespace ClauseTemplates

/-- The text of a reference to a record of a type. -/
def resourceUri (type id : String) : String := "resource:" ++ type ++ "#" ++ id

/-- A value for each primitive type. -/
def primitivePlaceholder (type : String) : Json :=
  if type = "String" then .str "placeholder"
  else if type = "Boolean" then .bool false
  else if type = "Integer" ∨ type = "Long" then .int 0
  else if type = "Double" then .double Double.zero
  else if type = "DateTime" then .str "1970-01-01T00:00:00.000Z"
  else .null

def propertyPlaceholder (value : String → Json) (p : Property) : Json :=
  let single :=
    if p.relationship then .str (resourceUri p.type "placeholder") else value p.type
  if p.array then .arr [single] else single

/-- A value of a type with records at most `levels` deep, and nulls in place of deeper ones. -/
def placeholderWithin (schema : Schema) : Nat → String → Json
  | levels, type =>
    if isPrimitive type then primitivePlaceholder type
    else match levels with
      | 0 => .null
      | levels + 1 =>
        match schema.find? type with
        | none => .null
        | some d =>
          if d.isEnum then (d.values.head?.map Json.str).getD .null
          else
            let shown := d.properties.filter fun p => !p.optional && !p.isSystem
            .obj (shown.foldl
              (fun fields p => Json.Fields.insert p.name
                (propertyPlaceholder (placeholderWithin schema levels) p) fields)
              [("$class", .str d.name)])

/-- The depth at which records of a type that reaches itself are cut off. -/
def placeholderLevels : Nat := 8

/-- A made-up value of a type: required properties only, one element in each array. -/
def placeholder (schema : Schema) (type : String) : Json :=
  placeholderWithin schema placeholderLevels type

end ClauseTemplates
