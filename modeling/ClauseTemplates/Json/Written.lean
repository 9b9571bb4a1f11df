import ClauseTemplates.Json.Basic

namespace ClauseTemplates.Json

def hexDigit (n : Nat) : Char := Nat.digitChar n

/-- One character inside a written string. -/
def writtenChar (c : Char) : List Char :=
  if c = '\x22' then ['\\', '\x22']
  else if c = '\\' then ['\\', '\\']
  else if c = '\n' then ['\\', 'n']
  else if c = '\r' then ['\\', 'r']
  else if c = '\t' then ['\\', 't']
  else if c = '\x08' then ['\\', 'b']
  else if c = '\x0c' then ['\\', 'f']
  else if c.toNat < 32 then
    ['\\', 'u', '0', '0', hexDigit (c.toNat / 16), hexDigit (c.toNat % 16)]
  else [c]

def writtenString (s : String) : List Char :=
  '\x22' :: s.toList.flatMap writtenChar ++ ['\x22']

def writtenInt (i : Int) : List Char :=
  if i < 0 then '-' :: Decimal.digitChars i.natAbs else Decimal.digitChars i.natAbs

mutual

/-- The text of a value without any white space. -/
def written : Json → List Char
  | .null => ['n', 'u', 'l', 'l']
  | .bool true => ['t', 'r', 'u', 'e']
  | .bool false => ['f', 'a', 'l', 's', 'e']
  | .int i => writtenInt i
  | .double x => x.jsonText
  | .str s => writtenString s
  | .arr [] => ['[', ']']
  | .arr (item :: rest) => '[' :: written item ++ writtenItems rest ++ [']']
  | .obj [] => ['\x7b', '\x7d']
  | .obj ((name, value) :: rest) =>
    '\x7b' :: writtenString name ++ ':' :: written value ++ writtenFields rest ++ ['\x7d']

def writtenItems : List Json → List Char
  | [] => []
  | item :: rest => ',' :: written item ++ writtenItems rest

def writtenFields : List (String × Json) → List Char
  | [] => []
  | (name, value) :: rest =>
    ',' :: writtenString name ++ ':' :: written value ++ writtenFields rest

end

def text (value : Json) : String := String.ofList (written value)

end ClauseTemplates.Json
