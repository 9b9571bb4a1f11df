import ClauseTemplates.Document.Tree
import ClauseTemplates.Template
import Std.Time.DateTime.Timestamp

namespace ClauseTemplates.CommandLine

def usage : String :=
  "usage: clausetemplates parse|draft|formulas --type TYPE [--contract] [--set KEY=VALUE]... " ++
  "[--format markdown|json]\n" ++
  "A JSON object on standard input holds the declarations as schema, the markup as template,\n" ++
  "and what the command reads: a text to parse as text, the data to draft as data."

inductive Command
  | parse
  | draft
  | formulas

/-- How a drafted document is printed. -/
inductive DraftFormat
  | markdown
  | json

structure Options where
  type : Option String
  kind : TemplateKind
  assignments : List String
  format : DraftFormat

def Options.standard : Options := ⟨none, .clause, [], .markdown⟩

def Options.ofArguments (options : Options) : List String → Except String Options
  | [] => .ok options
  | "--contract" :: rest => { options with kind := .contract }.ofArguments rest
  | "--type" :: type :: rest => { options with type := some type }.ofArguments rest
  | "--set" :: text :: rest =>
    { options with assignments := options.assignments ++ [text] }.ofArguments rest
  | "--format" :: "markdown" :: rest => { options with format := .markdown }.ofArguments rest
  | "--format" :: "json" :: rest => { options with format := .json }.ofArguments rest
  | argument :: _ => .error ("unexpected argument " ++ argument ++ "\n" ++ usage)

def Command.ofName (name : String) : Except String Command :=
  if name = "parse" then .ok .parse
  else if name = "draft" then .ok .draft
  else if name = "formulas" then .ok .formulas
  else .error ("unknown command " ++ name ++ "\n" ++ usage)

/-- What a command depends on besides its input. -/
structure Surroundings where
  now : Instant
  /-- Fresh identifiers are numbered from here. -/
  identifiers : Nat

def textField (input : Json) (name : String) : Except String String :=
  match (input.get? name).bind Json.string? with
  | some text => .ok text
  | none => .error ("the input has no text " ++ name)

def formulaJson (f : Formula) : Json :=
  Json.record [("name", .str f.name), ("code", .str f.code)]

def parse (template : Template) (table : Table) (around : Surroundings) (text : String) :
    Except Error String := do
  let context : ScanContext := ⟨table.settings.utcOffset, around.now⟩
  let parser ← (template.parser context table).1
  pure (← parser.parse text around.identifiers).text

def draft (template : Template) (table : Table) (around : Surroundings) (format : DraftFormat)
    (data : Json) : Except Error String := do
  let now := { around.now with offset := table.settings.utcOffset }
  let doc ← ((template.draft data now).run ⟨table, around.identifiers⟩).1
  match format with
  | .markdown => pure (Markdown.render table.settings.bullet [doc])
  | .json => pure doc.toJson.text

def told (result : Except Error α) : Except String α := result.mapError Error.message

/-- What a command prints. -/
def output (command : Command) (options : Options) (around : Surroundings) (input : Json) :
    Except String String := do
  let some type := options.type | .error ("no root type\n" ++ usage)
  let settings ← told ((Settings.ofAssignments options.assignments).mapError .settings)
  let schema ← told ((Schema.read ((input.get? "schema").getD (.arr [])).text).mapError .model)
  let markup ← textField input "template"
  let template ← told (Template.ofMarkup schema options.kind type markup)
  let table := Table.empty schema settings
  match command with
  | .parse => do told (parse template table around (← textField input "text"))
  | .draft =>
    if 1440 ≤ settings.utcOffsetMinutes.natAbs then .error "UTC offset out of range"
    else told (draft template table around options.format ((input.get? "data").getD .null))
  | .formulas => pure (Json.arr (template.formulas.map formulaJson)).text

def run (name : String) (arguments : List String) (around : Surroundings) (text : String) :
    Except String String := do
  let command ← Command.ofName name
  let options ← Options.standard.ofArguments arguments
  match Json.read? text with
  | some input => output command options around input
  | none => .error "the input is no JSON"

def readAll (stream : IO.FS.Stream) (read : String) : Nat → IO String
  | 0 => pure read
  | fuel + 1 => do
    let line ← stream.getLine
    if line.isEmpty then pure read else readAll stream (read ++ line) fuel

def surroundings : IO Surroundings := do
  let now ← Std.Time.Timestamp.now
  let bytes ← IO.getRandomBytes 15
  let nanos := now.toNanosecondsSinceUnixEpoch.val
  pure
    { now := ⟨nanos / nanosPerSecond, (nanos % nanosPerSecond).toNat, 0⟩
      identifiers := bytes.foldl (fun n byte => 256 * n + byte.toNat) 0 }

end ClauseTemplates.CommandLine

open ClauseTemplates CommandLine

def main : List String → IO UInt32
  | [] => do
    IO.eprintln usage
    pure 2
  | name :: arguments => do
    let text ← readAll (← IO.getStdin) "" (power 2 32)
    match run name arguments (← surroundings) text with
    | .ok text => do
      IO.println text
      pure 0
    | .error message => do
      IO.eprintln message
      pure 1
