import ClauseTemplates.Expression.Basic
import ClauseTemplates.Expression.Token
import ClauseTemplates.Json.Reader
import ClauseTemplates.Scan.Repetition

namespace ClauseTemplates

/-- Code that is no expression. -/
structure ExpressionError where
  code : String
  message : String
  /-- The byte of the code that the message is about. -/
  offset : Option Nat
  deriving DecidableEq

namespace Expression.Reading

open Scanner

abbrev TokenScanner (α : Type) := Scanner Token α

def mark (m : Mark) : TokenScanner Unit :=
  token [.mark m] fun t => if t = .mark m then some () else none

def name : TokenScanner String :=
  token [] fun
    | .name text => some (String.ofList text)
    | _ => none

/-- The value of a number token: an integer without point and exponent that fits 64 bits with a
sign, or else a double in range. -/
def numberValue? (text : List Char) : Option Json :=
  let magnitude := Decimal.ofDigitChars text
  if text.all Char.isDigit && decide (magnitude < power 2 63) then some (.int magnitude)
  else ((WrittenJson.decimalOf text).toDouble? false).map .double

def numberLiteral : TokenScanner Expression :=
  (token [] fun
    | .number text => some text
    | _ => none).tryMap fun text =>
      match numberValue? text with
      | some value => .ok (.literal value)
      | none => .error ("invalid number " ++ String.ofList text)

def otherLiteral : TokenScanner Expression :=
  token [] fun
    | .str text => some (.literal (.str (String.ofList text)))
    | .trueWord => some (.literal (.bool true))
    | .falseWord => some (.literal (.bool false))
    | .nullWord => some (.literal .null)
    | _ => none

def enclosed (opening closing : Mark) (p : TokenScanner α) : TokenScanner α := do
  mark opening
  let a ← p
  mark closing
  pure a

inductive Access
  | member (name : String)
  | index (key : Expression)

def Access.apply (target : Expression) : Access → Expression
  | member name => .member target name
  | index key => .index target key

/-- Literals, calls, names, arrays and expressions in parentheses, over the grammar of whole
expressions. -/
def atom (expr : TokenScanner Expression) : TokenScanner Expression :=
  choice
    [orElse numberLiteral otherLiteral,
     do
      let function ← name
      let arguments ← enclosed .openParen .closeParen (separated expr (mark .comma) false false)
      pure (.call function arguments),
     do pure (.ident (← name)),
     do pure (.array (← enclosed .openBracket .closeBracket
      (separated expr (mark .comma) false true))),
     enclosed .openParen .closeParen expr]

def access (expr : TokenScanner Expression) : TokenScanner Access :=
  orElse
    (do mark .dot; pure (.member (← name)))
    (do pure (.index (← enclosed .openBracket .closeBracket expr)))

def postfixed (expr : TokenScanner Expression) : TokenScanner Expression := do
  let target ← atom expr
  let accesses ← many (access expr) 0
  pure (accesses.foldl Access.apply target)

def unary (expr : TokenScanner Expression) : TokenScanner Expression := do
  let wraps ← many (orElse (do mark .minus; pure neg) (do mark .bang; pure not)) 0
  let operand ← postfixed expr
  pure (wraps.foldr (fun wrap e => wrap e) operand)

def operator (m : Mark) (op : BinaryOp) : TokenScanner BinaryOp := do
  mark m
  pure op

/-- Operands with operators between them, grouped from the left. -/
def leftChain (operand : TokenScanner Expression) (op : TokenScanner BinaryOp) :
    TokenScanner Expression := do
  let first ← operand
  let rest ← many (do pure (← op, ← operand)) 0
  pure (rest.foldl (fun lhs (op, rhs) => .binary op lhs rhs) first)

def product (expr : TokenScanner Expression) : TokenScanner Expression :=
  leftChain (unary expr)
    (orElse (orElse (operator .star .mul) (operator .slash .div)) (operator .percent .rem))

def sum (expr : TokenScanner Expression) : TokenScanner Expression :=
  leftChain (product expr) (orElse (operator .plus .add) (operator .minus .sub))

def comparison (expr : TokenScanner Expression) : TokenScanner Expression :=
  leftChain (sum expr)
    (choice [operator .le .le, operator .lt .lt, operator .ge .ge, operator .gt .gt])

def equality (expr : TokenScanner Expression) : TokenScanner Expression :=
  leftChain (comparison expr) (orElse (operator .eqEq .eq) (operator .notEq .ne))

def conjunction (expr : TokenScanner Expression) : TokenScanner Expression :=
  leftChain (equality expr) (operator .andAnd .and)

def disjunction (expr : TokenScanner Expression) : TokenScanner Expression :=
  leftChain (conjunction expr) (operator .orOr .or)

def conditional (expr : TokenScanner Expression) : TokenScanner Expression := do
  let condition ← disjunction expr
  let branches ← optional do
    mark .question
    let whenTrue ← expr
    mark .colon
    let whenFalse ← expr
    pure (whenTrue, whenFalse)
  match branches with
  | some (whenTrue, whenFalse) => pure (.cond condition whenTrue whenFalse)
  | none => pure condition

/-- Expressions with fewer than `fuel` levels of brackets and branches. Each level reads a token,
so one more than the number of tokens is enough. -/
def expression : Nat → TokenScanner Expression
  | 0 => fun c => .failure (unexpected [] c)
  | fuel + 1 => conditional (expression fuel)

end Expression.Reading

namespace Expression

/-- The expression that a list of tokens is. -/
def ofTokens (tokens : List Token) : Except (Scan.Failure Token) Expression :=
  Scanner.run
    (do let e ← Reading.expression (tokens.length + 1); Scanner.endOfInput; pure e) tokens

def placeOf (code : List Char) (tokens : List Token.Placed) (index : Nat) : Nat :=
  match tokens[index]? with
  | some t => t.byte
  | none => Text.byteLength code

def unexpectedMessage : Scan.Cause Token → String
  | .unexpected (some t) => "unexpected \x60" ++ t.text ++ "\x60"
  | _ => "unexpected end of expression"

/-- Reads code. -/
def read (code : String) : Except ExpressionError Expression :=
  match Token.readAll code.toList with
  | .error stray =>
    .error ⟨code, "unexpected character " ++ Text.showText stray.text, some stray.byte⟩
  | .ok tokens =>
    match ofTokens (tokens.map (·.token)) with
    | .ok e => .ok e
    | .error f =>
      .error ⟨code, unexpectedMessage f.cause, some (placeOf code.toList tokens f.start)⟩

end Expression

end ClauseTemplates
