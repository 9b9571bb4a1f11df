import ClauseTemplates.Json.Reader
import ClauseTemplates.Json.Written
import ClauseTemplates.Scan.Repetition

namespace ClauseTemplates

/-- The mark before the fraction and how many digits follow it. -/
structure FractionLayout where
  separator : Char
  places : Nat
  deriving DecidableEq

/-- How a number is laid out: an optional mark between groups of three digits, and an optional
fraction. -/
structure NumberLayout where
  grouping : Option Char
  fraction : Option FractionLayout
  deriving DecidableEq

/-- How numbers are written and read; without a layout, plainly. -/
structure NumberFormat where
  integral : Bool
  layout : Option NumberLayout
  deriving DecidableEq

namespace NumberFormat

/-- Integers are laid out by `0`, or by `0`, a mark between groups, and `0`. -/
def integer (format : Option (List Char)) : Except String NumberFormat :=
  match format with
  | none => .ok ⟨true, none⟩
  | some ['0'] => .ok ⟨true, some ⟨none, none⟩⟩
  | some ['0', mark, '0'] =>
    if mark.isDigit then .error "expected \x600\x60 or \x600,0\x60"
    else .ok ⟨true, some ⟨some mark, none⟩⟩
  | some _ => .error "expected \x600\x60 or \x600,0\x60"

def isZeros (cs : List Char) : Bool := !cs.isEmpty && cs.all (· == '0')

/-- Doubles are laid out by `0`, by `0` with a fraction of zeros, or by `0`, a mark between groups,
and `0` with a fraction. -/
def double (format : Option (List Char)) : Except String NumberFormat :=
  let malformed : Except String NumberFormat :=
    .error "expected \x600\x60, \x600.00\x60 or \x600,0.00\x60"
  match format with
  | none => .ok ⟨false, none⟩
  | some ['0'] => .ok ⟨false, some ⟨none, none⟩⟩
  | some ('0' :: mark :: rest) =>
    if mark.isDigit then malformed
    else if isZeros rest then .ok ⟨false, some ⟨none, some ⟨mark, rest.length⟩⟩⟩
    else match rest with
      | '0' :: point :: zeros =>
        if point.isDigit || !isZeros zeros then malformed
        else if mark = point then .error "grouping and decimal separators must differ"
        else .ok ⟨false, some ⟨some mark, some ⟨point, zeros.length⟩⟩⟩
      | _ => malformed
  | some _ => malformed

open Scanner

def digit : Scanner Char Char := satisfying Char.isDigit

def digits : Scanner Char (List Char) := many digit 1

/-- One to three digits, then groups of three with the mark before each. -/
def groupedDigits (mark : Char) : Scanner Char (List Char) := do
  let head ← between digit 1 3
  let groups ← many (do exactly [mark]; between digit 3 3) 0
  pure (head ++ groups.flatten)

def sign : Scanner Char Bool := do
  pure (← optional (exactly ['-'])).isSome

/-- Whether there is a minus in front, and the digits without the marks between groups. -/
def wholePart (format : NumberFormat) : Scanner Char (Bool × List Char) := do
  let negative ← sign
  let digits ← match format.layout.bind (·.grouping) with
    | none => digits
    | some mark => groupedDigits mark
  pure (negative, digits)

def toInt64 (part : Bool × List Char) : Except String Json :=
  let magnitude := Decimal.ofDigitChars part.2
  let value : Int := if part.1 then -(magnitude : Int) else magnitude
  if value < -power 2 63 then .error "invalid integer: number too small to fit in target type"
  else if power 2 63 ≤ value then .error "invalid integer: number too large to fit in target type"
  else .ok (.int value)

def integerScanner (format : NumberFormat) : Scanner Char Json :=
  format.wholePart.tryMap toInt64

def exponentPart : Scanner Char (List Char) := do
  let e ← among ['e', 'E']
  let sign ← optional (among ['+', '-'])
  pure (e :: sign.toList ++ (← digits))

/-- Whether there is a minus in front, and the digits after it with a point for the fraction. -/
def decimalPart (format : NumberFormat) : Scanner Char (Bool × List Char) :=
  match format.layout with
  | none => do
    let negative ← sign
    let whole ← digits
    let fraction ← optional (do exactly ['.']; digits)
    let exponent ← optional exponentPart
    let places := match fraction with
      | some digits => '.' :: digits
      | none => []
    pure (negative, whole ++ places ++ exponent.getD [])
  | some layout => do
    let (negative, whole) ← format.wholePart
    match layout.fraction with
    | none => pure (negative, whole)
    | some fraction => do
      exactly [fraction.separator]
      pure (negative, whole ++ '.' :: (← digits))

/-- The nearest double to the number read, if it is in range. -/
def doubleScanner (format : NumberFormat) : Scanner Char (Option Double) := do
  let (negative, text) ← format.decimalPart
  pure ((WrittenJson.decimalOf text).toDouble? negative)

def scanner (format : NumberFormat) : Scanner Char Json :=
  if format.integral then format.integerScanner
  else format.doubleScanner.tryMap fun
    | some x => .ok (.double x)
    | none => .error "number out of range"

/-- Digits with `mark` between groups of three, counted from the right. -/
def grouped (mark : Option Char) (digits : List Char) : List Char :=
  match mark with
  | none => digits
  | some mark => go mark digits
where
  go (mark : Char) : List Char → List Char
    | [] => []
    | [c] => [c]
    | c :: rest => if rest.length % 3 = 0 then c :: mark :: go mark rest else c :: go mark rest

def writtenInteger (format : NumberFormat) (value : Int) : List Char :=
  let digits := grouped (format.layout.bind (·.grouping)) (Decimal.digitChars value.natAbs)
  if value < 0 then '-' :: digits else digits

/-- A number of a double without a layout: integral ones below 10^15 keep one place. -/
def writtenPlain (x : Double) : List Char :=
  if x.isIntegral && decide (x.truncate.natAbs < power 10 15) then
    let (whole, fraction) := x.fixedParts 1
    (if x.negative then ['-'] else []) ++ whole ++ '.' :: fraction
  else x.plainText

/-- A number of a double. With a layout, a minus stands only before digits that are not all
zero. -/
def writtenDouble (format : NumberFormat) (x : Double) : List Char :=
  match format.layout with
  | none => writtenPlain x
  | some layout =>
    let (whole, fraction) := x.fixedParts ((layout.fraction.map (·.places)).getD 0)
    let shown := x.negative && (whole ++ fraction).any (· != '0')
    (if shown then ['-'] else []) ++ grouped layout.grouping whole ++
      match layout.fraction with
      | none => []
      | some part => part.separator :: fraction

def integerOf? (value : Json) : Option Int :=
  match value.int64? with
  | some i => some i
  | none => (value.double?).bind fun x =>
    if x.isIntegral && Json.inInt64 x.truncate then some x.truncate else none

/-- The text of a value, or why there is none. -/
def draft (format : NumberFormat) (value : Json) : Except String (List Char) :=
  if format.integral then
    match integerOf? value with
    | some i => .ok (format.writtenInteger i)
    | none => .error (value.text ++ " is not an integer")
  else
    match value.double? with
    | some x => .ok (format.writtenDouble x)
    | none => .error (value.text ++ " is not a number")

end NumberFormat

end ClauseTemplates
