import ClauseTemplates.Calendar.Date
import ClauseTemplates.Number.Decimal
import ClauseTemplates.Text.Blank

namespace ClauseTemplates

/-- A point in time, seen at an offset from UTC. `seconds` counts from the start of 1970 in UTC
without leap seconds; during a leap second it stays on the second before, and `nanos` runs from
one to two thousand million. -/
structure Instant where
  seconds : Int
  nanos : Nat
  offset : Int
  deriving DecidableEq

/-- What a clock at a place shows: a date and the time of day. -/
structure LocalTime where
  date : Date
  hour : Nat
  minute : Nat
  second : Nat
  nanos : Nat
  deriving DecidableEq

def secondsPerDay : Int := 86400

def nanosPerSecond : Int := 1000000000

namespace Instant

def ofLocal (t : LocalTime) (offset : Int) : Instant :=
  ⟨t.date.toDay * secondsPerDay + ((t.hour * 60 + t.minute) * 60 + t.second : Nat) - offset,
    t.nanos, offset⟩

def localTime (t : Instant) : LocalTime :=
  let seconds := t.seconds + t.offset
  let ofDay := (seconds % secondsPerDay).toNat
  ⟨Date.ofDay (seconds / secondsPerDay), ofDay / 3600, ofDay / 60 % 60, ofDay % 60, t.nanos⟩

/-- The same time of day, as many days later. A leap second ends with any shift: it becomes the
second before when going forward and the second after when going back. -/
def addDays? (t : Instant) (days : Int) : Option Instant :=
  let limit : Int := (power 2 63 - 1) / 86400000
  if days < -limit ∨ limit < days then none
  else
    let leap := 1000000000 ≤ t.nanos ∧ days ≠ 0
    let nanos := if leap then t.nanos - 1000000000 else t.nanos
    let seconds := if leap ∧ days < 0 then t.seconds + 1 else t.seconds
    let shifted := seconds + days * secondsPerDay
    if (Date.ofDay (shifted / secondsPerDay)).isValid then some ⟨shifted, nanos, t.offset⟩
    else none

/-- Whole days from one instant to another, toward zero. A leap second between the two times of
day counts. -/
def daysUntil (first last : Instant) : Int :=
  let firstOfDay := first.seconds % secondsPerDay
  let lastOfDay := last.seconds % secondsPerDay
  let leap : Int :=
    if firstOfDay < lastOfDay ∧ 1000000000 ≤ first.nanos then 1
    else if lastOfDay < firstOfDay ∧ 1000000000 ≤ last.nanos then -1
    else 0
  let nanos := (last.seconds - first.seconds + leap) * nanosPerSecond + (last.nanos - first.nanos)
  nanos.tdiv (secondsPerDay * nanosPerSecond)

/-- A number with zeros in front up to `width` digits. -/
def padded (width n : Nat) : List Char :=
  let digits := Decimal.digitChars n
  List.replicate (width - digits.length) '0' ++ digits

/-- An offset in hours and minutes, `Z` for none. -/
def offsetText (offset : Int) : List Char :=
  if offset = 0 then ['Z']
  else
    let minutes := offset.natAbs / 60
    (if offset < 0 then '-' else '+') :: padded 2 (minutes / 60) ++ ':' :: padded 2 (minutes % 60)

def yearText (year : Int) : List Char :=
  if year < 0 then '-' :: padded 4 year.natAbs
  else if 9999 < year then '+' :: padded 4 year.natAbs
  else padded 4 year.natAbs

/-- RFC 3339 text with milliseconds; a leap second is written as second 60. -/
def written (t : Instant) : List Char :=
  let c := t.localTime
  let second := if 1000000000 ≤ c.nanos then c.second + 1 else c.second
  yearText c.date.year ++ '-' :: padded 2 c.date.month ++ '-' :: padded 2 c.date.day ++
    'T' :: padded 2 c.hour ++ ':' :: padded 2 c.minute ++ ':' :: padded 2 second ++
    '.' :: padded 3 (c.nanos % 1000000000 / 1000000) ++ offsetText t.offset

def text (t : Instant) : String := String.ofList t.written

/-- Why a text is no RFC 3339 time. -/
inductive ReadError
  | tooShort
  | invalid
  | outOfRange
  | trailing
  deriving DecidableEq

def ReadError.message : ReadError → String
  | .tooShort => "premature end of input"
  | .invalid => "input contains invalid characters"
  | .outOfRange => "input is out of range"
  | .trailing => "trailing input"

/-- A fixed number of digits. -/
def readDigits (count : Nat) (cs : List Char) : Except ReadError (Nat × List Char) :=
  let digits := cs.take count
  if digits.length = count ∧ digits.all Char.isDigit then
    .ok (Decimal.ofDigitChars digits, cs.drop count)
  else .error .invalid

def readMark (allowed : List Char) : List Char → Except ReadError (List Char)
  | [] => .error .invalid
  | c :: rest => if allowed.contains c then .ok rest else .error .invalid

/-- The fraction of a second in nanoseconds; digits past the ninth are skipped. -/
def readFraction : List Char → Except ReadError (Nat × List Char)
  | '.' :: rest =>
    match rest with
    | [] => .error .tooShort
    | rest =>
      match rest.span Char.isDigit with
      | ([], _) => .error .invalid
      | (digits, rest) =>
        let kept := digits.take 9
        .ok (Decimal.ofDigitChars kept * power 10 (9 - kept.length), rest)
  | cs => .ok (0, cs)

def twoDigits (cs : List Char) : Except ReadError (Nat × List Char) :=
  if Text.byteLength cs < 2 then .error .tooShort else readDigits 2 cs

def readOffset : List Char → Except ReadError (Int × List Char)
  | [] => .error .tooShort
  | c :: rest =>
    if c = 'Z' ∨ c = 'z' then .ok (0, rest)
    else if c = '+' ∨ c = '-' ∨ c = '−' then do
      let (hours, rest) ← twoDigits rest
      let rest ← match rest with
        | [] => .error .tooShort
        | rest => readMark [':'] rest
      let (minutes, rest) ← twoDigits rest
      if 59 < minutes then .error .outOfRange
      else
        let seconds : Int := hours * 3600 + minutes * 60
        if 86400 ≤ seconds then .error .outOfRange
        else .ok (if c = '+' then seconds else -seconds, rest)
    else .error .invalid

/-- Reads RFC 3339 text. -/
def read (cs : List Char) : Except ReadError Instant := do
  if Text.byteLength cs < 19 then .error .tooShort
  let (year, cs) ← readDigits 4 cs
  let cs ← readMark ['-'] cs
  let (month, cs) ← readDigits 2 cs
  let cs ← readMark ['-'] cs
  let (day, cs) ← readDigits 2 cs
  let date : Date := ⟨year, month, day⟩
  if !date.isValid then .error .outOfRange
  let cs ← readMark ['T', 't', ' '] cs
  let (hour, cs) ← readDigits 2 cs
  let cs ← readMark [':'] cs
  let (minute, cs) ← readDigits 2 cs
  let cs ← readMark [':'] cs
  let (second, cs) ← readDigits 2 cs
  let (nanos, cs) ← readFraction cs
  if 23 < hour ∨ 59 < minute ∨ 60 < second then .error .outOfRange
  let time : LocalTime :=
    if second = 60 then ⟨date, hour, minute, 59, nanos + 1000000000⟩
    else ⟨date, hour, minute, second, nanos⟩
  let (offset, cs) ← readOffset cs
  if cs.isEmpty then .ok (ofLocal time offset) else .error .trailing

end Instant

end ClauseTemplates
