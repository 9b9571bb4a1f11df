import ClauseTemplates.Format.Monetary
import ClauseTemplates.Text.Quoted

namespace ClauseTemplates

/-- Types whose values are written by one text program. -/
inductive ScalarType
  | string
  | boolean
  | integer
  | long
  | double
  | dateTime
  | monetaryAmount
  deriving DecidableEq

/-- The scalar type of a name; these names are never looked up in the schema. -/
def ScalarType.ofName? (name : String) : Option ScalarType :=
  if name = "String" then some .string
  else if name = "Boolean" then some .boolean
  else if name = "Integer" then some .integer
  else if name = "Long" then some .long
  else if name = "Double" then some .double
  else if name = "DateTime" then some .dateTime
  else if name = ClauseTemplates.monetaryAmount then some .monetaryAmount
  else none

/-- How the values of a type are written and read. -/
inductive ScalarProgram
  | string
  | boolean
  | number (format : NumberFormat)
  | dateTime (format : DateTimeFormat)
  | monetary (format : MonetaryFormat)
  deriving DecidableEq

namespace ScalarProgram

/-- The program of a type with a format, or why the format is refused. -/
def compile (type : ScalarType) (format : Option String) : Except String ScalarProgram :=
  let text := format.map String.toList
  match type with
  | .string => if format.isSome then .error "this type takes no format" else .ok .string
  | .boolean => if format.isSome then .error "this type takes no format" else .ok .boolean
  | .integer | .long => (NumberFormat.integer text).map .number
  | .double => (NumberFormat.double text).map .number
  | .dateTime => (DateTimeFormat.compile text).map .dateTime
  | .monetaryAmount => (MonetaryFormat.compile text).map .monetary

open Scanner

def escapeScanner : Scanner Char Char := do
  exactly ['\\']
  choice
    [do exactly ['\\']; pure '\\',
     do exactly ['\x22']; pure '\x22',
     do exactly ['n']; pure '\n']

/-- Reads a string between double quotes. -/
def quotedScanner : Scanner Char (List Char) := do
  exactly ['\x22']
  let cs ← many
    (orElse (satisfying fun c => c != '\\' && c != '\x22' && c != '\n') escapeScanner) 0
  exactly ['\x22']
  pure cs

/-- Reads a value. -/
def scanner (context : ScanContext) : ScalarProgram → Scanner Char Json
  | .string => do pure (.str (String.ofList (← quotedScanner)))
  | .boolean =>
    orElse (do exactly "true".toList; pure (.bool true))
      (do exactly "false".toList; pure (.bool false))
  | .number format => format.scanner
  | .dateTime format => format.scanner context
  | .monetary format => format.scanner

/-- The text of a value, or why there is none. -/
def draft (program : ScalarProgram) (value : Json) : Except String (List Char) :=
  match program, value with
  | .string, .str s => .ok (Text.quoted s.toList)
  | .string, value => .error (value.text ++ " is not a string")
  | .boolean, .bool true => .ok "true".toList
  | .boolean, .bool false => .ok "false".toList
  | .boolean, value => .error (value.text ++ " is not a boolean")
  | .number format, value => format.draft value
  | .dateTime format, value => format.draft value
  | .monetary format, value => format.draft value

end ScalarProgram

end ClauseTemplates
