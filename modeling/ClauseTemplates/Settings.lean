import ClauseTemplates.Number.Decimal
import ClauseTemplates.Text.Blank

namespace ClauseTemplates

/-- What a caller can choose about reading and writing texts. -/
structure Settings where
  /-- Fields that receive a fresh identifier for every clause and every contract. -/
  clauseIdentifier : String
  contractIdentifier : String
  /-- The offset of times that show none. -/
  utcOffsetMinutes : Int
  /-- The marker of bullet list items. -/
  bullet : Char
  deriving DecidableEq

/-- Why assignments give no settings. -/
inductive SettingsError
  | noAssignment (text : String)
  | refused
  deriving DecidableEq

namespace Settings

def standard : Settings := ⟨"clauseId", "contractId", 0, '-'⟩

/-- Texts that are integers of 64 bits are integers, all others stay texts. -/
inductive Value
  | int (i : Int)
  | text (cs : List Char)
  deriving DecidableEq

def magnitude? (digits : List Char) : Option Nat :=
  if !digits.isEmpty && digits.all Char.isDigit then some (Decimal.ofDigitChars digits) else none

def integer? (cs : List Char) : Option Int :=
  let value := match cs with
    | '-' :: digits => (magnitude? digits).map fun n => -(n : Int)
    | '+' :: digits => (magnitude? digits).map Int.ofNat
    | digits => (magnitude? digits).map Int.ofNat
  value.bind fun i => if -power 2 63 ≤ i ∧ i < power 2 63 then some i else none

def Value.ofChars (cs : List Char) : Value :=
  match integer? cs with
  | some i => .int i
  | none => .text cs

def isKeyPart (c : Char) : Bool := c.isAlphanum || c == '_' || c == '-'

def splitDots (cs : List Char) : List (List Char) :=
  match cs with
  | [] => [[]]
  | c :: rest =>
    match splitDots rest with
    | [] => [[c]]
    | part :: parts => if c = '.' then [] :: part :: parts else (c :: part) :: parts

/-- The parts of a key between its points, in lower case. -/
def path? (key : List Char) : Option (List String) :=
  let parts := splitDots key
  if parts.all fun part => !part.isEmpty && part.all isKeyPart then
    some (parts.map fun part => String.ofList (part.map Char.toLower))
  else none

def textOf : Value → String
  | .int i => toString i
  | .text cs => String.ofList cs

/-- The words for a switch that is on count as one, those for one that is off as zero. -/
def switch? (word : String) : Option Int :=
  if word = "true" ∨ word = "on" ∨ word = "yes" then some 1
  else if word = "false" ∨ word = "off" ∨ word = "no" then some 0
  else none

def int32? : Value → Option Int
  | .int i => if -power 2 31 ≤ i ∧ i < power 2 31 then some i else none
  | .text cs => switch? (String.ofList (cs.map Char.toLower))

def char? : Value → Option Char
  | .text [c] => some c
  | _ => none

/-- A key with the value last assigned to it. -/
abbrev Assignment := List String × Value

def assignment? (text : String) : Except SettingsError Assignment :=
  match Text.splitAt? '=' text.toList with
  | none => .error (.noAssignment text)
  | some (key, value) =>
    match path? (Text.trim key) with
    | none => .error .refused
    | some path => .ok (path, Value.ofChars (Text.trim value))

/-- The groups of settings hold settings, and settings hold values: neither takes the place of the
other. -/
def breaksLayout (path : List String) : Bool :=
  match path with
  | ["identifiers"] | ["parsing"] | ["rendering"] => true
  | "identifiers" :: "clause" :: _ :: _ => true
  | "identifiers" :: "contract" :: _ :: _ => true
  | "parsing" :: "utc_offset_minutes" :: _ :: _ => true
  | "rendering" :: "bullet" :: _ :: _ => true
  | _ => false

def last? (assignments : List Assignment) (path : List String) : Option Value :=
  assignments.reverse.lookup path

def setting (assignments : List Assignment) (path : List String) (standard : α)
    (read : Value → Option α) : Except SettingsError α :=
  match last? assignments path with
  | none => .ok standard
  | some value =>
    match read value with
    | some a => .ok a
    | none => .error .refused

/-- The standard settings with `key=value` assignments on top. Of two for one key the later one
counts, and other keys than those of settings are ignored. -/
def ofAssignments (texts : List String) : Except SettingsError Settings := do
  let assignments ← texts.mapM assignment?
  if assignments.any fun (path, _) => breaksLayout path then .error .refused
  else
    pure
      { clauseIdentifier := ← setting assignments ["identifiers", "clause"]
          standard.clauseIdentifier (some ∘ textOf)
        contractIdentifier := ← setting assignments ["identifiers", "contract"]
          standard.contractIdentifier (some ∘ textOf)
        utcOffsetMinutes := ← setting assignments ["parsing", "utc_offset_minutes"]
          standard.utcOffsetMinutes int32?
        bullet := ← setting assignments ["rendering", "bullet"] standard.bullet char? }

/-- The offset of times that show none, in seconds: UTC unless it is less than a day. -/
def utcOffset (settings : Settings) : Int :=
  if settings.utcOffsetMinutes.natAbs < 1440 then settings.utcOffsetMinutes * 60 else 0

end Settings

end ClauseTemplates
