import ClauseTemplates.Expression.Grammar
import ClauseTemplates.Grammar.Capture
import ClauseTemplates.Markup.Line
import ClauseTemplates.Entry.Table
import ClauseTemplates.Schema.Reader
import ClauseTemplates.Template.Binding

namespace ClauseTemplates

/-- A text that is not one of a template. -/
structure ParseError where
  position : Position
  expected : List String
  found : Option String
  message : String
  deriving DecidableEq

/-- Data that a template cannot show. -/
inductive DraftError
  | missingField (name : String)
  | typeMismatch (name expected : String)
  | invalidValue (name type reason : String)
  | evaluation (name message : String)
  | emptyList (name : String)
  deriving DecidableEq

namespace DraftError

/-- The part of the template that the error is about. -/
def name : DraftError → String
  | missingField name => name
  | typeMismatch name _ => name
  | invalidValue name _ _ => name
  | evaluation name _ => name
  | emptyList name => name

def message : DraftError → String
  | missingField name => "missing value for \x60" ++ name ++ "\x60"
  | typeMismatch name expected => "\x60" ++ name ++ "\x60 should be " ++ expected
  | invalidValue name type reason =>
    "cannot draft \x60" ++ name ++ "\x60 as " ++ type ++ ": " ++ reason
  | evaluation name message => "evaluating \x60" ++ name ++ "\x60 failed: " ++ message
  | emptyList name => "list \x60" ++ name ++ "\x60 is empty and would not parse back"

end DraftError

/-- Whatever can go wrong between a schema, a template, its data and its texts. -/
inductive Error
  | markup (e : MarkupError)
  | bind (e : BindError)
  | expression (e : ExpressionError)
  | registry (e : EntryError)
  | parse (e : ParseError)
  | inconsistent (e : Inconsistency)
  | draft (e : DraftError)
  | model (e : Schema.ReadError)
  | settings (e : SettingsError)

namespace Error

def placed (line column : Nat) : String := toString line ++ ":" ++ toString column

def message : Error → String
  | markup e => "syntax error at " ++ placed e.line e.column ++ ": " ++ e.message
  | bind e => e.message
  | expression e => "invalid expression \x60" ++ e.code ++ "\x60: " ++ e.message
  | registry e => e.message
  | parse e => "parse error at " ++ placed e.position.line e.position.column ++ ": " ++ e.message
  | inconsistent e => e.message
  | draft e => e.message
  | model .malformed => "invalid JSON model"
  | model (.repeated name) => "declaration \x60" ++ name ++ "\x60 is defined twice"
  | settings (.noAssignment text) =>
    "configuration error: expected key=value, got \x60" ++ text ++ "\x60"
  | settings .refused => "configuration error: invalid settings"

/-- The part of the schema or template that the error is about. -/
def name? : Error → Option String
  | bind e => some e.name
  | registry e => some e.name
  | draft e => some e.name
  | _ => none

/-- The place of the text that the error is about; in markup, only the line and the column
count. -/
def position? : Error → Option Position
  | markup e => some ⟨0, e.line, e.column⟩
  | parse e => some e.position
  | inconsistent e => some e.position
  | _ => none

end Error

end ClauseTemplates
