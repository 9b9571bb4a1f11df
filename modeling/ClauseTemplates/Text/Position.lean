namespace ClauseTemplates

/-- A place in a text. Characters are counted from zero, lines and columns from one. -/
structure Position where
  offset : Nat
  line : Nat
  column : Nat
  deriving DecidableEq, Repr

namespace Position

/-- Moves over one character. -/
def step (p : Position) (c : Char) : Position :=
  if c = '\n' then ⟨p.offset + 1, p.line + 1, 1⟩ else ⟨p.offset + 1, p.line, p.column + 1⟩

/-- The place of a character offset; an offset past the end keeps its value there. -/
def locate (text : List Char) (offset : Nat) : Position :=
  { (text.take offset).foldl step ⟨0, 1, 1⟩ with offset := offset }

end Position

end ClauseTemplates
