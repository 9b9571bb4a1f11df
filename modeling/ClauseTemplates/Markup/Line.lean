import ClauseTemplates.Document.Markdown
import ClauseTemplates.Text.Word

namespace ClauseTemplates

/-- Markup that cannot be read, and where. Lines and columns are counted from one. -/
structure MarkupError where
  line : Nat
  column : Nat
  expected : List String
  message : String
  deriving DecidableEq

namespace Markup

/-- A line of markup, or the rest of one behind what marks quotes and items. -/
structure Line where
  text : List Char
  number : Nat
  /-- The column of the markup where `text` starts. -/
  column : Nat

namespace Line

/-- Without some characters in front. -/
def skip (line : Line) (count : Nat) : Line :=
  ⟨line.text.drop count, line.number, line.column + count⟩

def isBlank (line : Line) : Bool := Text.allBlank line.text

def error (line : Line) (message : String) : MarkupError :=
  ⟨line.number, line.column, [], message⟩

end Line

inductive RegionTag
  | clause
  | ulist
  | olist
  deriving DecidableEq

def RegionTag.name : RegionTag → String
  | clause => "clause"
  | ulist => "ulist"
  | olist => "olist"

/-- The line that opens a region. -/
structure RegionOpening where
  tag : RegionTag
  name : String
  attributes : List (String × String)
  deriving DecidableEq

def tag? (cs : List Char) : Option (RegionTag × List Char) :=
  [RegionTag.clause, .ulist, .olist].findSome? fun tag =>
    (Text.dropStart? tag.name.toList cs).map fun rest => (tag, rest)

/-- The rest behind blanks, of which there must be one. -/
def afterBlanks? (cs : List Char) : Option (List Char) :=
  match cs with
  | c :: rest => if Text.isBlank c then some (Text.trimStart rest) else none
  | [] => none

def isNamePart (c : Char) : Bool := Text.isWordPart c || c == '$'

def attribute? (cs : List Char) : Option ((String × String) × List Char) := do
  let cs ← afterBlanks? cs
  let (name, cs) := cs.span Text.isWordPart
  if name.isEmpty then none
  let cs ← Text.dropStart? ['=', '\x22'] cs
  let (value, cs) ← Text.splitAt? '\x22' cs
  some ((String.ofList name, String.ofList value), cs)

def attributes : Nat → List Char → List (String × String) × List Char
  | 0, cs => ([], cs)
  | fuel + 1, cs =>
    match attribute? cs with
    | none => ([], cs)
    | some (found, cs) =>
      let (rest, cs) := attributes fuel cs
      (found :: rest, cs)

/-- A region opens with a tag, a name and attributes between double braces, alone on the line. -/
def regionOpening? (text : List Char) : Option RegionOpening := do
  let cs ← Text.dropStart? ['\x7b', '\x7b', '#'] text
  let (tag, cs) ← tag? cs
  let cs ← afterBlanks? cs
  let (name, cs) := cs.span isNamePart
  let first ← name.head?
  if !Text.isNameStart first then none
  let (attributes, cs) := attributes cs.length cs
  let cs ← Text.dropStart? ['\x7d', '\x7d'] (Text.trimStart cs)
  if Text.allBlank cs then some ⟨tag, String.ofList name, attributes⟩ else none

def regionClosing? (text : List Char) : Option RegionTag := do
  let cs ← Text.dropStart? ['\x7b', '\x7b', '/'] text
  let (tag, cs) ← tag? cs
  let cs ← Text.dropStart? ['\x7d', '\x7d'] cs
  if Text.allBlank cs then some tag else none

/-- The level of a heading: one to six number signs before a blank. -/
def headingLevel? (text : List Char) : Option Nat :=
  match text.span (· == '#') with
  | (marks, ' ' :: _) => if 1 ≤ marks.length ∧ marks.length ≤ 6 then some marks.length else none
  | _ => none

def isThematicBreak (text : List Char) : Bool :=
  (Text.dropStart? Markdown.thematicBreak text).any Text.allBlank

/-- The length of the mark of a list item in front. -/
def itemMark? (kind : ListKind) (text : List Char) : Option Nat :=
  match kind with
  | .bullet =>
    match text with
    | c :: ' ' :: _ => if c = '-' ∨ c = '*' then some 2 else none
    | _ => none
  | .ordered =>
    match text.span Text.isDecimalDigit with
    | (digits, '.' :: ' ' :: _) => if digits.isEmpty then none else some (digits.length + 2)
    | _ => none

/-- The number of an ordered list item, one if it is not written in ASCII or has no 32 bits. -/
def itemNumber (text : List Char) : UInt32 :=
  let digits := text.takeWhile Text.isDecimalDigit
  let number := Decimal.ofDigitChars digits
  if digits.all Char.isDigit ∧ number < power 2 32 then .ofNat number else 1

def isQuoted (text : List Char) : Bool := text.head? == some '>'

/-- Whether a line ends the paragraph above it. -/
def startsBlock (text : List Char) : Bool :=
  (regionOpening? text).isSome || (regionClosing? text).isSome ||
    Text.startsWith Markdown.fence text || isQuoted text || (headingLevel? text).isSome ||
    isThematicBreak text || (itemMark? .bullet text).isSome || (itemMark? .ordered text).isSome

/-- The lines of some markup. -/
def linesOf (markup : List Char) : List Line :=
  (Text.lines markup).zipIdx.map fun (text, i) => ⟨text, i + 1, 1⟩

end Markup

end ClauseTemplates
