import ClauseTemplates.Json.Reader
import ClauseTemplates.Schema.Builtin

namespace ClauseTemplates.Schema

/-- Why a schema cannot be read. -/
inductive ReadError
  | malformed
  | repeated (name : String)
  deriving DecidableEq

def writtenString? : WrittenJson → Option String
  | .str s => s
  | _ => none

def writtenBool? : WrittenJson → Option Bool
  | .bool b => some b
  | _ => none

def writtenList? (item : WrittenJson → Option α) : WrittenJson → Option (List α)
  | .arr items => items.mapM item
  | _ => none

def writtenOptional? : WrittenJson → Option (Option String)
  | .null => some none
  | .str (some s) => some (some s)
  | _ => none

/-- The values of the named fields. A record is written as an object, with each field at most once
and other fields ignored, or as an array of its first fields in order. -/
def writtenFields? (names : List String) : WrittenJson → Option (List (Option WrittenJson))
  | .arr items =>
    if items.length ≤ names.length then
      some (items.map some ++ List.replicate (names.length - items.length) none)
    else none
  | .obj fields => do
    let fields ← fields.mapM fun (name, value) => name.map (·, value)
    names.mapM fun name =>
      match fields.filter (·.1 == name) with
      | [] => some none
      | [(_, value)] => some (some value)
      | _ => none
  | _ => none

def required? (read : WrittenJson → Option α) (value : Option WrittenJson) : Option α :=
  value.bind read

def withDefault? (read : WrittenJson → Option α) (default : α)
    (value : Option WrittenJson) : Option α :=
  match value with
  | none => some default
  | some value => read value

def decorator? (written : WrittenJson) : Option Decorator := do
  match ← writtenFields? ["name", "arguments"] written with
  | [name, arguments] =>
    some
      { name := ← required? writtenString? name
        arguments := ← withDefault? (writtenList? writtenString?) [] arguments }
  | _ => none

def property? (written : WrittenJson) : Option Property := do
  match ← writtenFields? ["name", "type", "array", "optional", "relationship", "decorators"]
      written with
  | [name, type, array, optional, relationship, decorators] =>
    some
      { name := ← required? writtenString? name
        type := ← required? writtenString? type
        array := ← withDefault? writtenBool? false array
        optional := ← withDefault? writtenBool? false optional
        relationship := ← withDefault? writtenBool? false relationship
        decorators := ← withDefault? (writtenList? decorator?) [] decorators }
  | _ => none

def kindNamed? (name : String) : Option DeclarationKind :=
  if name = "concept" then some .concept
  else if name = "asset" then some .asset
  else if name = "participant" then some .participant
  else if name = "enum" then some .enum
  else none

/-- A kind is written by its name alone or as the one field of an object, with null. -/
def kind? : WrittenJson → Option DeclarationKind
  | .str s => s.bind kindNamed?
  | .obj [(name, .null)] => name.bind kindNamed?
  | _ => none

def declaration? (written : WrittenJson) : Option Declaration := do
  match ← writtenFields? ["name", "kind", "identified_by", "properties", "values", "decorators"]
      written with
  | [name, kind, identifiedBy, properties, values, decorators] =>
    some
      { name := ← required? writtenString? name
        kind := ← required? kind? kind
        identifiedBy := ← withDefault? writtenOptional? none identifiedBy
        properties := ← withDefault? (writtenList? property?) [] properties
        values := ← withDefault? (writtenList? writtenString?) [] values
        decorators := ← withDefault? (writtenList? decorator?) [] decorators }
  | _ => none

/-- A schema from the written list of its declarations. -/
def ofWritten (written : WrittenJson) : Except ReadError Schema :=
  match writtenList? declaration? written with
  | none => .error .malformed
  | some declarations => (ofDeclarations declarations).mapError .repeated

/-- A schema from the JSON text of the list of its declarations. -/
def read (text : String) : Except ReadError Schema :=
  match WrittenJson.read? text.toList with
  | none => .error .malformed
  | some written => ofWritten written

end ClauseTemplates.Schema
