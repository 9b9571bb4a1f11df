import ClauseTemplates.Format.Scalar
import ClauseTemplates.Entry.Fragment
import ClauseTemplates.Settings
import ClauseTemplates.Template.Binding

namespace ClauseTemplates

inductive EntryError
  | unknownParser (type : String)
  | invalidFormat (type format message : String)
  | unbound (name : String)
  deriving DecidableEq

namespace EntryError

/-- The type or name that the error is about. -/
def name : EntryError → String
  | unknownParser type => type
  | invalidFormat type _ _ => type
  | unbound name => name

def message : EntryError → String
  | unknownParser type => "no parser for type \x60" ++ type ++ "\x60"
  | invalidFormat type format message =>
    "invalid format \x60" ++ format ++ "\x60 for " ++ type ++ ": " ++ message
  | unbound name => "\x60" ++ name ++ "\x60 has no bound type"

end EntryError

/-- How the values of a type are read and written: by a text program, or through a template of
their own. -/
inductive Entry
  | scalar (program : ScalarProgram)
  | compound (type : String) (children : List Node)

/-- A type and a format for it. -/
structure EntryKey where
  type : String
  format : Option String
  deriving DecidableEq

namespace Entry

/-- Compiles the entry of a key. Scalar types come before declared ones of their names. -/
def compile (schema : Schema) (key : EntryKey) : Except EntryError Entry :=
  match ScalarType.ofName? key.type with
  | some type =>
    match ScalarProgram.compile type key.format with
    | .ok program => .ok (.scalar program)
    | .error message => .error (.invalidFormat key.type (key.format.getD "") message)
  | none =>
    match (schema.find? key.type).filter fun d => !d.isEnum with
    | none => .error (.unknownParser key.type)
    | some d =>
      match key.format with
      | some format => .error (.invalidFormat key.type format "compound types take no format")
      | none =>
        match Binding.bindRecord schema d.name (Fragment.ofDeclaration d) with
        | .ok children => .ok (.compound d.name children)
        | .error e => .error (.unknownParser e.name)

end Entry

/-- A type whose values are records: declared, no enumeration, and no scalar type. -/
def Schema.isCompound (schema : Schema) (type : String) : Bool :=
  (ScalarType.ofName? type).isNone && schema.isRecord type

/-- The entries that were requested, in the order of the first requests, each with what it was
compiled to if that succeeded. -/
structure Table where
  schema : Schema
  settings : Settings
  cells : List (EntryKey × Option Entry)

namespace Table

def empty (schema : Schema) (settings : Settings) : Table := ⟨schema, settings, []⟩

/-- How many keys were requested, also those that did not compile. -/
def size (table : Table) : Nat := table.cells.length

/-- The entry kept for a key. -/
def cached? (table : Table) (key : EntryKey) : Option Entry := (table.cells.lookup key).join

def store (key : EntryKey) (entry : Option Entry) :
    List (EntryKey × Option Entry) → List (EntryKey × Option Entry)
  | [] => [(key, entry)]
  | (k, e) :: rest => if k = key then (k, entry) :: rest else (k, e) :: store key entry rest

/-- The entry of a key, compiled at the first request that succeeds and kept from then on. -/
def entry (key : EntryKey) (table : Table) : Except EntryError Entry × Table :=
  match table.cached? key with
  | some found => (.ok found, table)
  | none =>
    let compiled := Entry.compile table.schema key
    (compiled, { table with cells := store key compiled.toOption table.cells })

end Table

end ClauseTemplates
