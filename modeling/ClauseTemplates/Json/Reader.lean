import ClauseTemplates.Json.Basic

namespace ClauseTemplates

/-- A JSON text as written: numbers by their characters, fields in order with repeated names. A
string whose escapes denote no characters is kept as `none`, since a reader may skip over it. -/
inductive WrittenJson
  | null
  | bool (b : Bool)
  | number (text : List Char)
  | str (s : Option String)
  | arr (items : List WrittenJson)
  | obj (fields : List (Option String × WrittenJson))

namespace WrittenJson

def isSpace (c : Char) : Bool := c == ' ' || c == '\n' || c == '\t' || c == '\r'

def skipSpace (cs : List Char) : List Char := cs.dropWhile isSpace

def hexValue? (c : Char) : Option Nat :=
  if c.isDigit then some (c.toNat - '0'.toNat)
  else if 'a' ≤ c ∧ c ≤ 'f' then some (c.toNat - 'a'.toNat + 10)
  else if 'A' ≤ c ∧ c ≤ 'F' then some (c.toNat - 'A'.toNat + 10)
  else none

def hexUnit? : List Char → Option (Nat × List Char)
  | a :: b :: c :: d :: rest => do
    let a ← hexValue? a
    let b ← hexValue? b
    let c ← hexValue? c
    let d ← hexValue? d
    some (a * 4096 + b * 256 + c * 16 + d, rest)
  | _ => none

def simpleEscape? (c : Char) : Option Char :=
  if c = '\x22' ∨ c = '\\' ∨ c = '/' then some c
  else if c = 'n' then some '\n'
  else if c = 'r' then some '\r'
  else if c = 't' then some '\t'
  else if c = 'b' then some '\x08'
  else if c = 'f' then some '\x0c'
  else none

/-- A second unit that completes a surrogate pair. -/
def lowSurrogate? : List Char → Option (Nat × List Char)
  | '\\' :: 'u' :: rest => do
    let (unit, rest) ← hexUnit? rest
    if 0xDC00 ≤ unit ∧ unit ≤ 0xDFFF then some (unit, rest) else none
  | _ => none

/-- Reads a string after its opening quote; `valid` tells whether all escapes so far denote
characters. -/
def readString : Nat → List Char → Bool → List Char → Option (Option String × List Char)
  | 0, _, _, _ => none
  | _ + 1, _, _, [] => none
  | fuel + 1, acc, valid, c :: rest =>
    if c = '\x22' then
      some (if valid then some (String.ofList acc.reverse) else none, rest)
    else if c.toNat < 32 then none
    else if c ≠ '\\' then readString fuel (c :: acc) valid rest
    else match rest with
      | 'u' :: rest => do
        let (unit, rest) ← hexUnit? rest
        if 0xD800 ≤ unit ∧ unit ≤ 0xDBFF then
          match lowSurrogate? rest with
          | some (low, rest) =>
            let code := 0x10000 + (unit - 0xD800) * 0x400 + (low - 0xDC00)
            readString fuel (Char.ofNat code :: acc) valid rest
          | none => readString fuel acc false rest
        else if 0xDC00 ≤ unit ∧ unit ≤ 0xDFFF then readString fuel acc false rest
        else readString fuel (Char.ofNat unit :: acc) valid rest
      | e :: rest => do readString fuel ((← simpleEscape? e) :: acc) valid rest
      | [] => none

def digitRun? (cs : List Char) : Option (List Char × List Char) :=
  match cs.span Char.isDigit with
  | ([], _) => none
  | found => some found

def readFraction? : List Char → Option (List Char × List Char)
  | '.' :: rest => do
    let (digits, rest) ← digitRun? rest
    some ('.' :: digits, rest)
  | cs => some ([], cs)

def readExponent? : List Char → Option (List Char × List Char)
  | [] => some ([], [])
  | e :: rest =>
    if e = 'e' ∨ e = 'E' then
      match rest with
      | '+' :: rest => do
        let (digits, rest) ← digitRun? rest
        some ('e' :: '+' :: digits, rest)
      | '-' :: rest => do
        let (digits, rest) ← digitRun? rest
        some ('e' :: '-' :: digits, rest)
      | rest => do
        let (digits, rest) ← digitRun? rest
        some ('e' :: digits, rest)
    else some ([], e :: rest)

def readNumber? (cs : List Char) : Option (List Char × List Char) := do
  let (sign, cs) := match cs with
    | '-' :: rest => (['-'], rest)
    | cs => ([], cs)
  let (whole, cs) ← match cs with
    | '0' :: rest => some (['0'], rest)
    | cs => digitRun? cs
  if whole = ['0'] ∧ (cs.head?.any Char.isDigit) then none
  else
    let (fraction, cs) ← readFraction? cs
    let (exponent, cs) ← readExponent? cs
    some (sign ++ whole ++ fraction ++ exponent, cs)

mutual

def readValue : Nat → List Char → Option (WrittenJson × List Char)
  | 0, _ => none
  | fuel + 1, cs =>
    match skipSpace cs with
    | 'n' :: 'u' :: 'l' :: 'l' :: rest => some (.null, rest)
    | 't' :: 'r' :: 'u' :: 'e' :: rest => some (.bool true, rest)
    | 'f' :: 'a' :: 'l' :: 's' :: 'e' :: rest => some (.bool false, rest)
    | '\x22' :: rest => do
      let (s, rest) ← readString (rest.length + 1) [] true rest
      some (.str s, rest)
    | '[' :: rest =>
      match skipSpace rest with
      | ']' :: rest => some (.arr [], rest)
      | rest => do
        let (items, rest) ← readItems fuel rest
        some (.arr items, rest)
    | '\x7b' :: rest =>
      match skipSpace rest with
      | '\x7d' :: rest => some (.obj [], rest)
      | rest => do
        let (fields, rest) ← readFields fuel rest
        some (.obj fields, rest)
    | cs => do
      let (digits, rest) ← readNumber? cs
      some (.number digits, rest)

def readItems : Nat → List Char → Option (List WrittenJson × List Char)
  | 0, _ => none
  | fuel + 1, cs => do
    let (item, rest) ← readValue fuel cs
    match skipSpace rest with
    | ',' :: rest =>
      let (items, rest) ← readItems fuel rest
      some (item :: items, rest)
    | ']' :: rest => some ([item], rest)
    | _ => none

def readFields : Nat → List Char → Option (List (Option String × WrittenJson) × List Char)
  | 0, _ => none
  | fuel + 1, cs => do
    match skipSpace cs with
    | '\x22' :: rest =>
      let (name, rest) ← readString (rest.length + 1) [] true rest
      match skipSpace rest with
      | ':' :: rest =>
        let (value, rest) ← readValue fuel rest
        match skipSpace rest with
        | ',' :: rest =>
          let (fields, rest) ← readFields fuel rest
          some ((name, value) :: fields, rest)
        | '\x7d' :: rest => some ([(name, value)], rest)
        | _ => none
      | _ => none
    | _ => none

end

/-- The value written in a text, with nothing but white space around it. -/
def read? (cs : List Char) : Option WrittenJson := do
  let (value, rest) ← readValue (cs.length + 1) cs
  if (skipSpace rest).isEmpty then some value else none

def exponentValue : List Char → Int
  | '-' :: digits => -(Decimal.ofDigitChars digits : Int)
  | '+' :: digits => Decimal.ofDigitChars digits
  | digits => Decimal.ofDigitChars digits

/-- The decimal number written by digits with an optional fraction and exponent. -/
def decimalOf (cs : List Char) : Decimal :=
  let (mantissa, tail) := cs.span fun c => !(c == 'e' || c == 'E')
  let (whole, fraction) := mantissa.span (· != '.')
  let places := fraction.drop 1
  ⟨Decimal.ofDigitChars (whole ++ places), exponentValue (tail.drop 1) - places.length⟩

/-- Numbers without point and exponent that fit 64 bits are integers, all others doubles; minus
zero is a double. -/
def numberValue? (text : List Char) : Option Json :=
  let (negative, digits) := match text with
    | '-' :: digits => (true, digits)
    | digits => (false, digits)
  let magnitude := Decimal.ofDigitChars digits
  if digits.all Char.isDigit && !(negative && magnitude == 0)
      && decide (magnitude ≤ if negative then power 2 63 else power 2 64 - 1) then
    some (.int (if negative then -(magnitude : Int) else magnitude))
  else ((decimalOf digits).toDouble? negative).map .double

mutual

/-- The data value; nothing if a string or a number in it denotes none. -/
def value? : WrittenJson → Option Json
  | .null => some .null
  | .bool b => some (.bool b)
  | .number text => numberValue? text
  | .str s => s.map .str
  | .arr items => (itemValues? items).map .arr
  | .obj fields => (fieldValues? fields).map fun fields => .obj (Json.Fields.ofList fields)

def itemValues? : List WrittenJson → Option (List Json)
  | [] => some []
  | item :: rest => do
    let value ← value? item
    some (value :: (← itemValues? rest))

def fieldValues? : List (Option String × WrittenJson) → Option (List (String × Json))
  | [] => some []
  | (name, value) :: rest => do
    let name ← name
    let value ← value? value
    some ((name, value) :: (← fieldValues? rest))

end

end WrittenJson

/-- Reads a data value from its JSON text. -/
def Json.read? (text : String) : Option Json :=
  (WrittenJson.read? text.toList).bind WrittenJson.value?

end ClauseTemplates
