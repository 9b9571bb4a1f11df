import ClauseTemplates.Json.Basic

namespace ClauseTemplates

inductive BinaryOp
  | mul | div | rem | add | sub | lt | le | gt | ge | eq | ne | and | or
  deriving DecidableEq

/-- The code of formulas and conditions. -/
inductive Expression
  | literal (value : Json)
  | ident (name : String)
  | member (target : Expression) (name : String)
  | index (target key : Expression)
  | neg (operand : Expression)
  | not (operand : Expression)
  | binary (op : BinaryOp) (lhs rhs : Expression)
  | cond (condition whenTrue whenFalse : Expression)
  | call (function : String) (arguments : List Expression)
  | array (items : List Expression)

namespace Expression

mutual

/-- The names an expression reads, in the order of their places. Members and functions are no
names of their own. -/
def names : Expression → List String
  | literal _ => []
  | ident name => [name]
  | member target _ => names target
  | index target key => names target ++ names key
  | neg operand => names operand
  | not operand => names operand
  | binary _ lhs rhs => names lhs ++ names rhs
  | cond condition whenTrue whenFalse => names condition ++ names whenTrue ++ names whenFalse
  | call _ arguments => namesOfAll arguments
  | array items => namesOfAll items

def namesOfAll : List Expression → List String
  | [] => []
  | e :: rest => names e ++ namesOfAll rest

end

def insertName (name : String) : List String → List String
  | [] => [name]
  | n :: rest =>
    if name = n then n :: rest
    else if name < n then name :: n :: rest
    else n :: insertName name rest

/-- The names an expression reads, sorted, each once. -/
def freeIdentifiers (e : Expression) : List String :=
  e.names.foldl (fun sorted name => insertName name sorted) []

end Expression

end ClauseTemplates
