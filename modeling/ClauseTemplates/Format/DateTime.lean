import ClauseTemplates.Calendar.Instant
import ClauseTemplates.Format.Number
import ClauseTemplates.Text.Shown

namespace ClauseTemplates

inductive DateField
  | year | month | day | hour | hour12 | minute | second | millis | offset | pm
  deriving DecidableEq

/-- A part of a date-time format. -/
inductive DateToken
  | literal (text : List Char)
  | fullYear
  | shortYear
  | monthName
  | monthAbbr
  | month (padded : Bool)
  | day (padded : Bool)
  | hour (padded : Bool)
  | hour12 (padded : Bool)
  | minute
  | second
  | millis
  | offset
  | meridiem (upper : Bool)
  deriving DecidableEq

def DateToken.isLiteral : DateToken → Bool
  | .literal _ => true
  | _ => false

structure DateTimeFormat where
  tokens : List DateToken
  deriving DecidableEq

/-- What reading a time depends on besides the text: the offset of times that show none, and the
time that supplies the year of dates without one. -/
structure ScanContext where
  utcOffset : Int
  now : Instant

namespace DateTimeFormat

def monthNames : List String :=
  ["January", "February", "March", "April", "May", "June", "July", "August", "September",
   "October", "November", "December"]

/-- The field tokens, each before those that begin it. -/
def fieldTokens : List (List Char × DateToken) :=
  [("YYYY".toList, .fullYear), ("YY".toList, .shortYear), ("MMMM".toList, .monthName),
   ("MMM".toList, .monthAbbr), ("MM".toList, .month true), ("M".toList, .month false),
   ("DD".toList, .day true), ("D".toList, .day false), ("HH".toList, .hour true),
   ("H".toList, .hour false), ("hh".toList, .hour12 true), ("h".toList, .hour12 false),
   ("mm".toList, .minute), ("ss".toList, .second), ("SSS".toList, .millis), ("Z".toList, .offset),
   ("A".toList, .meridiem true), ("a".toList, .meridiem false)]

/-- The token in front and the text after it. Brackets enclose a literal, which loses all opening
brackets at its start. -/
def token? (cs : List Char) : Option (DateToken × List Char) :=
  match cs with
  | '[' :: rest =>
    match Text.splitAt? ']' rest with
    | some (inner, rest) => some (.literal (inner.dropWhile (· == '[')), rest)
    | none => none
  | cs => fieldTokens.findSome? fun (text, token) =>
      (Text.dropStart? text cs).map fun rest => (token, rest)

def withPending (pending : List Char) (tokens : List DateToken) : List DateToken :=
  if pending.isEmpty then tokens else .literal pending.reverse :: tokens

/-- Text between tokens is literal. -/
def tokensFrom : Nat → List Char → List Char → List DateToken
  | 0, pending, _ => withPending pending []
  | _ + 1, pending, [] => withPending pending []
  | fuel + 1, pending, c :: rest =>
    match token? (c :: rest) with
    | some (token, rest) => withPending pending (token :: tokensFrom fuel [] rest)
    | none => tokensFrom fuel (c :: pending) rest

def tokensOf (format : List Char) : List DateToken :=
  (tokensFrom (format.length + 1) [] format).filter (· ≠ .literal [])

def standard : List Char := "YYYY-MM-DDTHH:mm:ss.SSSZ".toList

def isHour12 : DateToken → Bool
  | .hour12 _ => true
  | _ => false

def isMeridiem : DateToken → Bool
  | .meridiem _ => true
  | _ => false

/-- A format with at least one field, and with a half of the day if it counts hours to twelve. -/
def compile (format : Option (List Char)) : Except String DateTimeFormat :=
  let tokens := tokensOf (format.getD standard)
  if tokens.all DateToken.isLiteral then .error "a date-time format needs at least one field"
  else if tokens.any isHour12 && !tokens.any isMeridiem then
    .error "12-hour clock needs \x60A\x60 or \x60a\x60"
  else .ok ⟨tokens⟩

open Scanner

/-- From `least` to `most` digits as a number. -/
def number (least most : Nat) : Scanner Char Int := do
  pure (Decimal.ofDigitChars (← between NumberFormat.digit least most))

def numbered (names : List (List Char)) : List (List Char × Int) :=
  names.zipIdx.map fun (name, i) => (name, (i : Int) + 1)

def numericOffset : Scanner Char Int := do
  let sign ← oneOf [(['+'], 1), (['-'], -1)]
  let hours ← number 2 2
  let _ ← optional (exactly [':'])
  let minutes ← number 2 2
  pure (sign * (hours * 3600 + minutes * 60))

def width (padded : Bool) : Nat := if padded then 2 else 1

def field (f : DateField) (p : Scanner Char Int) :
    Scanner Char (Option (DateField × Int)) := do
  pure (some (f, ← p))

/-- What a token reads: a value for a field, unless it is literal. -/
def tokenScanner : DateToken → Scanner Char (Option (DateField × Int))
  | .literal text => do exactly text; pure none
  | .fullYear => field .year (number 4 4)
  | .shortYear => field .year (do pure (2000 + (← number 2 2)))
  | .monthName => field .month (oneOf (numbered (monthNames.map String.toList)))
  | .monthAbbr => field .month (oneOf (numbered (monthNames.map fun name => name.toList.take 3)))
  | .month padded => field .month (number (width padded) 2)
  | .day padded => field .day (number (width padded) 2)
  | .hour padded => field .hour (number (width padded) 2)
  | .hour12 padded => field .hour12 (number (width padded) 2)
  | .minute => field .minute (number 2 2)
  | .second => field .second (number 2 2)
  | .millis => field .millis (number 3 3)
  | .offset => field .offset (orElse (do exactly ['Z']; pure 0) numericOffset)
  | .meridiem upper =>
    field .pm (oneOf (if upper then [(['A', 'M'], 0), (['P', 'M'], 1)]
      else [(['a', 'm'], 0), (['p', 'm'], 1)]))

def fieldScanner : List DateToken → Scanner Char (List (DateField × Int))
  | [] => succeed []
  | token :: rest => do
    let found ← tokenScanner token
    pure (found.toList ++ (← fieldScanner rest))

def paddedInt (width : Nat) (i : Int) : String :=
  String.ofList ((if i < 0 then ['-'] else []) ++ Instant.padded width i.natAbs)

def hourOf (hour hour12 pm : Option Int) : Int :=
  match hour, hour12, pm with
  | some hour, _, _ => hour
  | none, some hour, some pm => hour % 12 + 12 * pm
  | none, some hour, none => hour
  | none, none, _ => 0

/-- The time that fields denote. Of two values for one field the later one counts. -/
def assemble (context : ScanContext) (fields : List (DateField × Int)) :
    Except String Instant := do
  let get (f : DateField) : Option Int := fields.reverse.lookup f
  let year := (get .year).getD context.now.localTime.date.year
  let month := (get .month).getD 1
  let day := (get .day).getD 1
  let hour := hourOf (get .hour) (get .hour12) (get .pm)
  let minute := (get .minute).getD 0
  let second := (get .second).getD 0
  let millis := (get .millis).getD 0
  let offset := (get .offset).getD context.utcOffset
  if (get .offset).isSome ∧ 86400 ≤ offset.natAbs then .error "invalid UTC offset"
  let date : Date := ⟨year, month.toNat, day.toNat⟩
  if !date.isValid then
    .error ("invalid date " ++ paddedInt 4 year ++ "-" ++ paddedInt 2 month ++ "-" ++
      paddedInt 2 day)
  if 23 < hour ∨ 59 < minute ∨ 59 < second then
    .error ("invalid time " ++ paddedInt 2 hour ++ ":" ++ paddedInt 2 minute ++ ":" ++
      paddedInt 2 second)
  .ok (Instant.ofLocal
    ⟨date, hour.toNat, minute.toNat, second.toNat, millis.toNat * 1000000⟩ offset)

/-- Times are read as RFC 3339 text. -/
def scanner (format : DateTimeFormat) (context : ScanContext) : Scanner Char Json :=
  (fieldScanner format.tokens).tryMap fun fields => do
    pure (.str (← assemble context fields).text)

def digitsOf (padded : Bool) (n : Nat) : List Char := Instant.padded (width padded) n

/-- What a token writes of a time. -/
def tokenText (t : LocalTime) (offset : Int) : DateToken → List Char
  | .literal text => text
  | .fullYear => (paddedInt 4 t.date.year).toList
  | .shortYear => Instant.padded 2 (t.date.year % 100).toNat
  | .monthName => (monthNames.getD (t.date.month - 1) "").toList
  | .monthAbbr => (monthNames.getD (t.date.month - 1) "").toList.take 3
  | .month padded => digitsOf padded t.date.month
  | .day padded => digitsOf padded t.date.day
  | .hour padded => digitsOf padded t.hour
  | .hour12 padded => digitsOf padded (if t.hour % 12 = 0 then 12 else t.hour % 12)
  | .minute => Instant.padded 2 t.minute
  | .second => Instant.padded 2 t.second
  | .millis => Instant.padded 3 (min (t.nanos / 1000000) 999)
  | .offset => Instant.offsetText offset
  | .meridiem upper =>
    match decide (12 ≤ t.hour), upper with
    | false, true => ['A', 'M']
    | true, true => ['P', 'M']
    | false, false => ['a', 'm']
    | true, false => ['p', 'm']

/-- The text of a value, or why there is none. -/
def draft (format : DateTimeFormat) (value : Json) : Except String (List Char) :=
  match value with
  | .str s =>
    match Instant.read s.toList with
    | .ok t => .ok (format.tokens.flatMap (tokenText t.localTime t.offset))
    | .error e => .error (Text.showText s.toList ++ ": " ++ e.message)
  | value => .error (value.text ++ " is not a date-time string")

end DateTimeFormat

end ClauseTemplates
