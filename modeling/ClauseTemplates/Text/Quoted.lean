namespace ClauseTemplates.Text

/-- One character inside a quoted string. -/
def quotedChar (c : Char) : List Char :=
  if c = '\\' then ['\\', '\\']
  else if c = '\x22' then ['\\', '\x22']
  else if c = '\n' then ['\\', 'n']
  else [c]

/-- Strings stand between double quotes, with backslashes, double quotes and line feeds escaped. -/
def quoted (cs : List Char) : List Char := '\x22' :: cs.flatMap quotedChar ++ ['\x22']

def quote (s : String) : String := String.ofList (quoted s.toList)

/-- The characters that markup would read as more than text. -/
def isMarkupChar (c : Char) : Bool :=
  c == '\\' || c == '*' || c == '\x60' || c == '\x7b' || c == '\x7d'

/-- Text with a backslash before every character that markup would read as more than text. -/
def escaped : List Char → List Char
  | [] => []
  | c :: rest => if isMarkupChar c then '\\' :: c :: escaped rest else c :: escaped rest

def escape (s : String) : String := String.ofList (escaped s.toList)

end ClauseTemplates.Text
