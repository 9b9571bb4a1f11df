import ClauseTemplates.Document.Markdown
import ClauseTemplates.Drafting
import ClauseTemplates.Grammar.Compile
import ClauseTemplates.Markup.Template
import ClauseTemplates.Scan.Message
import ClauseTemplates.Template.Formulas

namespace ClauseTemplates

/-- A template bound to a schema, for the records of one type. -/
structure Template where
  kind : TemplateKind
  type : String
  body : List Node

/-- The grammar of the texts of a template, with what reading them depends on. -/
structure TemplateParser where
  context : ScanContext
  compounds : Grammar.Compounds
  root : ValueGrammar

namespace Template

/-- Binds nodes to a schema and analyzes their formulas. -/
def ofNodes (schema : Schema) (kind : TemplateKind) (type : String) (nodes : List Node) :
    Except Error Template := do
  let bound ← (Binding.bindRecord schema type nodes).mapError .bind
  let body ← (Formulas.analyzeAll bound).mapError .expression
  pure ⟨kind, type, body⟩

/-- Reads markup, binds it to a schema and analyzes its formulas. -/
def ofMarkup (schema : Schema) (kind : TemplateKind) (type : String) (markup : String) :
    Except Error Template := do
  let nodes ← (Markup.read markup).mapError .markup
  ofNodes schema kind type nodes

/-- The clause or contract around the body. -/
def root (t : Template) : Node :=
  match t.kind with
  | .clause => .clause t.type (some t.type) none none t.body
  | .contract => .contract (some t.type) t.body

def formulas (t : Template) : List Formula := Formulas.collectAll t.body

/-- The field of the records of the template that receives a fresh identifier. -/
def identifier (t : Template) (settings : Settings) : String :=
  match t.kind with
  | .clause => settings.clauseIdentifier
  | .contract => settings.contractIdentifier

/-- The document that shows some data. -/
def draft (t : Template) (data : Json) (now : Instant) : Drafting Doc := do
  if !data.isObject then throw (.draft (.typeMismatch t.type "an object"))
  let table := (← get).table
  let context : DraftContext := ⟨data, now, t.kind⟩
  let compound := Drafting.compound context (Drafting.levels table.schema data)
  let docs ← Drafting.nodes context compound t.body data
  let record ← Drafting.record data (some t.type) (t.identifier table.settings)
  pure (.node (.document (some record)) docs)

/-- The grammar of the body, in the state of a compiler. -/
def compile (t : Template) : Compiling ValueGrammar := do
  let table := (← get).table
  let compound := Compiling.compound t.kind (table.schema.declarations.length + 1)
  let body ← Compiling.inBlocks (Compiling.eachBlock t.kind compound t.body)
  pure (.record t.type (some (t.identifier table.settings)) body)

/-- Compiles a parser; the table keeps the entries that were requested, also on an error. -/
def parser (t : Template) (context : ScanContext) (table : Table) :
    Except Error TemplateParser × Table :=
  match t.compile.run (Compiling.start table) with
  | (.ok root, s) => (.ok ⟨context, s.compounds, root⟩, s.table)
  | (.error e, s) => (.error (.registry e), s.table)

end Template

namespace TemplateParser

/-- What a text shows, before values are compared. -/
def capture (p : TemplateParser) (text : List Char) : Except ParseError Captured :=
  match Scanner.run (Grammar.textScanner p.context p.compounds p.root) text with
  | .ok captured => .ok captured
  | .error f => .error ⟨Position.locate text f.start, f.expectedTexts, f.found, f.message⟩

/-- The record that a text was drafted from; identifiers are numbered from `identifiers` on. -/
def parse (p : TemplateParser) (text : String) (identifiers : Nat) : Except Error Json := do
  let captured ← (p.capture text.toList).mapError .parse
  let (value, _) ← ((captured.fold text.toList).run identifiers).mapError .inconsistent
  pure value

end TemplateParser

end ClauseTemplates
