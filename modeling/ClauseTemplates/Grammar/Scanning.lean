import ClauseTemplates.Grammar.Basic
import ClauseTemplates.Schema.Placeholder

namespace ClauseTemplates

open Scanner

/-- A value shown by slots: the current value if there is a slot for it, otherwise a record of its
type, and null for a value that the text does not show. -/
def Captured.ofElement (type : Option String) (slots : List Slot) : Captured :=
  if slots.any Slot.isThis then .unwrapped slots
  else match type with
    | some type => .record type none slots
    | none => .value .null

namespace Grammar

/-- The compound types of a grammar, each with the grammar of its records. -/
abbrev Compounds := List (String × ValueGrammar)

def skip (p : Scanner Char α) : Scanner Char (List Slot) := do
  let _ ← p
  pure []

def orderedMarkScanner : Scanner Char Unit := do
  let _ ← many (satisfying Char.isDigit) 1
  exactly ['.', ' ']

mutual

/-- Reads the slots that a text shows, with `compound` for records of compound types. -/
def scanner (context : ScanContext) (compound : String → Scanner Char Captured) :
    Grammar → Scanner Char (List Slot)
  | .text chars => skip (exactly chars)
  | .seq first second => do
    let slots ← scanner context compound first
    pure (slots ++ (← scanner context compound second))
  | .either first second =>
    orElse (scanner context compound first) (scanner context compound second)
  | .flagged branch name flag =>
    located (scanner context compound branch) fun slots start =>
      slots ++ [.mk name (.value (.bool flag)) start]
  | .slot name value =>
    located (valueScanner context compound value) fun captured start => [.mk name captured start]
  | .formula => skip do
    exactly Markdown.formulaOpen
    takeUntil (exactly Markdown.formulaClose)
  | .orderedMark => skip orderedMarkScanner
  | .optionally body => do
    pure ((← optional (scanner context compound body)).getD [])

def valueScanner (context : ScanContext) (compound : String → Scanner Char Captured) :
    ValueGrammar → Scanner Char Captured
  | .scalar program => do pure (.value (← program.scanner context))
  | .reference type => do
    let id ← ScalarProgram.quotedScanner
    pure (.value (.str (resourceUri type (String.ofList id))))
  | .enum values =>
    oneOf ((longestFirst values).map fun value => (value.toList, .value (.str value)))
  | .compound type => compound type
  | .record type identifier body => do
    pure (.record type identifier (← scanner context compound body))
  | .element type body => do pure (.ofElement type (← scanner context compound body))
  | .items separator nonempty item => do
    pure (.array (← separated (valueScanner context compound item) (exactly separator) nonempty
      false))

end

/-- Reads a record of a compound type with fewer than `fuel` records inside one another. Each
record reads a character before it enters the next, so one more than the length of the text is
enough. -/
def compoundScanner (context : ScanContext) (compounds : Compounds) :
    Nat → String → Scanner Char Captured
  | 0, _ => fun c => .failure (unexpected [] c)
  | fuel + 1, type =>
    match compounds.lookup type with
    | none => fun c => .failure (unexpected [] c)
    | some value => valueScanner context (compoundScanner context compounds fuel) value

/-- Reads a whole text up to blanks at its end. -/
def textScanner (context : ScanContext) (compounds : Compounds) (root : ValueGrammar) :
    Scanner Char Captured := fun c =>
  (do
    let captured ←
      valueScanner context (compoundScanner context compounds (c.rest.length + 1)) root
    let _ ← many (satisfying Text.isBlank) 0
    endOfInput
    pure captured : Scanner Char Captured) c

end Grammar

end ClauseTemplates
