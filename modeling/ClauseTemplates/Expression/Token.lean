import ClauseTemplates.Text.Shown
import ClauseTemplates.Text.Word

namespace ClauseTemplates

inductive Mark
  | openParen | closeParen | openBracket | closeBracket | comma | dot | question | colon
  | plus | minus | star | slash | percent | bang
  | eqEq | notEq | lt | le | gt | ge | andAnd | orOr
  deriving DecidableEq

inductive Token
  | number (text : List Char)
  | str (text : List Char)
  | name (text : List Char)
  | trueWord
  | falseWord
  | nullWord
  | mark (m : Mark)
  deriving DecidableEq

def Mark.text : Mark → String
  | openParen => "("
  | closeParen => ")"
  | openBracket => "["
  | closeBracket => "]"
  | comma => ","
  | dot => "."
  | question => "?"
  | colon => ":"
  | plus => "+"
  | minus => "-"
  | star => "*"
  | slash => "/"
  | percent => "%"
  | bang => "!"
  | eqEq => "=="
  | notEq => "!="
  | lt => "<"
  | le => "<="
  | gt => ">"
  | ge => ">="
  | andAnd => "&&"
  | orOr => "||"

namespace Token

/-- A token as messages show it. -/
def text : Token → String
  | number text => String.ofList text
  | str text => Text.showText text
  | name text => String.ofList text
  | trueWord => "true"
  | falseWord => "false"
  | nullWord => "null"
  | mark m => m.text

/-- A token and the byte where it starts. -/
structure Placed where
  token : Token
  byte : Nat

/-- Characters that start no token. -/
structure Stray where
  text : List Char
  byte : Nat

def twoCharMark? (c d : Char) : Option Mark :=
  if c = '=' ∧ d = '=' then some .eqEq
  else if c = '!' ∧ d = '=' then some .notEq
  else if c = '<' ∧ d = '=' then some .le
  else if c = '>' ∧ d = '=' then some .ge
  else if c = '&' ∧ d = '&' then some .andAnd
  else if c = '|' ∧ d = '|' then some .orOr
  else none

def oneCharMark? (c : Char) : Option Mark :=
  if c = '(' then some .openParen
  else if c = ')' then some .closeParen
  else if c = '[' then some .openBracket
  else if c = ']' then some .closeBracket
  else if c = ',' then some .comma
  else if c = '.' then some .dot
  else if c = '?' then some .question
  else if c = ':' then some .colon
  else if c = '+' then some .plus
  else if c = '-' then some .minus
  else if c = '*' then some .star
  else if c = '/' then some .slash
  else if c = '%' then some .percent
  else if c = '!' then some .bang
  else if c = '<' then some .lt
  else if c = '>' then some .gt
  else none

/-- The longest mark in front. -/
def markPrefix? : List Char → Option (Mark × Nat)
  | c :: d :: _ => ((twoCharMark? c d).map (·, 2)).or ((oneCharMark? c).map (·, 1))
  | [c] => (oneCharMark? c).map (·, 1)
  | [] => none

/-- The digits in front, after an optional sign if `signed`. -/
def digitsLength (signed : Bool) (cs : List Char) : Nat :=
  match cs with
  | c :: rest =>
    if signed && (c == '+' || c == '-') then
      let count := (rest.takeWhile Char.isDigit).length
      if count = 0 then 0 else count + 1
    else (cs.takeWhile Char.isDigit).length
  | [] => 0

/-- The length of the longest number in front: digits, then a fraction and an exponent where they
are complete. -/
def numberLength (cs : List Char) : Nat :=
  let whole := digitsLength false cs
  if whole = 0 then 0
  else
    let fraction := match cs.drop whole with
      | '.' :: rest => match digitsLength false rest with
        | 0 => 0
        | count => count + 1
      | _ => 0
    let exponent := match cs.drop (whole + fraction) with
      | e :: rest =>
        if e = 'e' ∨ e = 'E' then match digitsLength true rest with
          | 0 => 0
          | count => count + 1
        else 0
      | [] => 0
    whole + fraction + exponent

/-- How a string literal ends: closed after some characters, or without a closing quote after
those that could belong to it. -/
inductive StringEnd
  | closed (text : List Char) (length : Nat)
  | cut (length : Nat)

/-- Reads a string literal after its opening quote. A backslash takes the next character with it,
which may not be a line feed; `\n` and `\t` stand for a line feed and a tab. -/
def readString (quote : Char) : List Char → List Char → Nat → StringEnd
  | [], _, length => .cut length
  | '\\' :: [], _, length => .cut length
  | '\\' :: c :: rest, text, length =>
    if c = '\n' then .cut length
    else
      let meant := if c = 'n' then '\n' else if c = 't' then '\t' else c
      readString quote rest (meant :: text) (length + 2)
  | c :: rest, text, length =>
    if c = quote then .closed text.reverse (length + 1)
    else readString quote rest (c :: text) (length + 1)

def word (text : List Char) : Token :=
  if text = ['t', 'r', 'u', 'e'] then trueWord
  else if text = ['f', 'a', 'l', 's', 'e'] then falseWord
  else if text = ['n', 'u', 'l', 'l'] then nullWord
  else name text

def isSkipped (c : Char) : Bool := c == ' ' || c == '\t' || c == '\r' || c == '\n'

/-- The longest token in front and its length, or how many characters belong to none. -/
def first (cs : List Char) : Except Nat (Token × Nat) :=
  match cs with
  | [] => .error 0
  | c :: rest =>
    if c.isDigit then
      let length := numberLength cs
      .ok (number (cs.take length), length)
    else if c = '\x22' ∨ c = '\x27' then
      match readString c rest [] 0 with
      | .closed text length => .ok (str text, length + 1)
      | .cut length => .error (length + 1)
    else if Text.isNameStart c then
      let text := cs.takeWhile Text.isNamePart
      .ok (word text, text.length)
    else match markPrefix? cs with
      | some (m, length) => .ok (mark m, length)
      | none => .error 1

def readFrom : Nat → List Char → Nat → Except Stray (List Placed)
  | 0, _, _ => .ok []
  | _ + 1, [], _ => .ok []
  | fuel + 1, c :: rest, byte =>
    if isSkipped c then readFrom fuel rest (byte + 1)
    else match first (c :: rest) with
      | .error length => .error ⟨(c :: rest).take length, byte⟩
      | .ok (token, length) =>
        let taken := (c :: rest).take length
        match readFrom fuel ((c :: rest).drop length) (byte + Text.byteLength taken) with
        | .error stray => .error stray
        | .ok tokens => .ok (⟨token, byte⟩ :: tokens)

/-- All tokens of some code, or the first characters that start none. -/
def readAll (code : List Char) : Except Stray (List Placed) :=
  readFrom code.length code 0

end Token

end ClauseTemplates
