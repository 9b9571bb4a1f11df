namespace ClauseTemplates.Text

/-- The white space characters of Unicode. -/
def blankRanges : List (Nat × Nat) :=
  [(0x9, 0xd), (0x20, 0x20), (0x85, 0x85), (0xa0, 0xa0), (0x1680, 0x1680), (0x2000, 0x200a),
   (0x2028, 0x2029), (0x202f, 0x202f), (0x205f, 0x205f), (0x3000, 0x3000)]

/-- Whether a character lies in one of the ranges, ends included. -/
def inRanges (ranges : List (Nat × Nat)) (c : Char) : Bool :=
  ranges.any fun r => r.1 ≤ c.toNat && c.toNat ≤ r.2

def isBlank (c : Char) : Bool := inRanges blankRanges c

def trimStart (cs : List Char) : List Char := cs.dropWhile isBlank

def trimEnd (cs : List Char) : List Char := (cs.reverse.dropWhile isBlank).reverse

def trim (cs : List Char) : List Char := trimEnd (trimStart cs)

def allBlank (cs : List Char) : Bool := cs.all isBlank

/-- The text without `start` in front, if it begins with it. -/
def dropStart? : List Char → List Char → Option (List Char)
  | [], cs => some cs
  | _ :: _, [] => none
  | s :: start, c :: cs => if s = c then dropStart? start cs else none

def startsWith (start cs : List Char) : Bool := (dropStart? start cs).isSome

def byteLength (cs : List Char) : Nat := (cs.map Char.utf8Size).foldr (· + ·) 0

/-- The parts before and after the first `mark`. -/
def splitAt? (mark : Char) (cs : List Char) : Option (List Char × List Char) :=
  match cs.span (· != mark) with
  | (_, []) => none
  | (before, _ :: after) => some (before, after)

/-- Drops one carriage return from the end of a line that had a line feed. -/
def withoutReturn (reversed : List Char) : List Char :=
  match reversed with
  | '\r' :: rest => rest.reverse
  | _ => reversed.reverse

/-- Lines end at line feeds, and an empty rest after the last one is no line. -/
def lines (cs : List Char) : List (List Char) :=
  go [] cs
where
  go : List Char → List Char → List (List Char)
    | [], [] => []
    | current, [] => [current.reverse]
    | current, '\n' :: rest => withoutReturn current :: go [] rest
    | current, c :: rest => go (c :: current) rest

/-- The items with `between` written after all but the last. -/
def joinWith (between : List Char) : List (List Char) → List Char
  | [] => []
  | [item] => item
  | item :: rest => item ++ between ++ joinWith between rest

end ClauseTemplates.Text
