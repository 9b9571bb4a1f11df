import ClauseTemplates.Scan.Basic
import ClauseTemplates.Text.Shown

namespace ClauseTemplates.Scan

namespace Failure

/-- What is wrong, without the place. -/
def message (f : Failure Char) : String :=
  match f.cause with
  | .custom message => message
  | .unexpected (some c) => "unexpected " ++ Text.showChar c
  | .unexpected none => "unexpected end of input"

/-- The character that was found; the end of the input is none, and so is what a message is about. -/
def found (f : Failure Char) : Option String :=
  match f.cause with
  | .unexpected (some c) => some (Text.showChar c)
  | _ => none

def expectedText : Option Char → String
  | some c => Text.showChar c
  | none => "end of input"

/-- A text added to some in order, unless it is one of them. -/
def insertText (s : String) : List String → List String
  | [] => [s]
  | t :: rest =>
    if s < t then s :: t :: rest
    else if t < s then t :: insertText s rest
    else t :: rest

/-- What was expected, in order and each once. -/
def expectedTexts (f : Failure Char) : List String :=
  (f.expected.map expectedText).foldr insertText []

end Failure

end ClauseTemplates.Scan
