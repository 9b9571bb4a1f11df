import ClauseTemplates.Calendar.Instant
import ClauseTemplates.Expression.Basic
import ClauseTemplates.Json.Written
import ClauseTemplates.Text.LetterCase

namespace ClauseTemplates

inductive EvalError
  | unknownFunction (name : String)
  | arity (function expected : String) (found : Nat)
  | type (operation message : String)
  | divisionByZero
  | invalidDate (text : String)
  deriving DecidableEq

def EvalError.message : EvalError → String
  | unknownFunction name => "unknown function \x60" ++ name ++ "\x60"
  | arity function expected found =>
    "\x60" ++ function ++ "\x60 expects " ++ expected ++ " argument(s), got " ++ toString found
  | type operation message => operation ++ ": " ++ message
  | divisionByZero => "division by zero"
  | invalidDate text => "invalid date \x60" ++ text ++ "\x60"

/-- The names that an expression can read: the fields of an object, and the time. -/
structure Scope where
  fields : Json.Fields
  now : Instant

namespace Scope

/-- Values other than objects have no fields. -/
def ofData (data : Json) (now : Instant) : Scope :=
  match data with
  | .obj fields => ⟨fields, now⟩
  | _ => ⟨[], now⟩

/-- Absent fields read as null. -/
def lookup (scope : Scope) (name : String) : Json :=
  if name = "now" then .str scope.now.text else (Json.Fields.get? name scope.fields).getD .null

end Scope

namespace Json

def truthy : Json → Bool
  | .null => false
  | .bool b => b
  | .int i => i != 0
  | .double x => !x.isZero
  | .str s => !s.isEmpty
  | .arr items => !items.isEmpty
  | .obj _ => true

mutual

/-- The text shown for a value: nothing for null, strings as they are, the items of arrays
separated by commas. -/
def display : Json → String
  | .null => ""
  | .str s => s
  | .arr items => displayItems items
  | value => value.text

def displayItems : List Json → String
  | [] => ""
  | [item] => display item
  | item :: rest => display item ++ ", " ++ displayItems rest

end

end Json

namespace Evaluation

abbrev Result := Except EvalError

/-- Results past the range of doubles are errors. -/
def ofDouble (x : Option Double) : Result Json :=
  match x with
  | some x => .ok (.double x)
  | none => .error (.type "arithmetic" "result is not a finite number")

/-- Integral results are integers where doubles tell them apart. -/
def integral (x : Double) : Json :=
  if x.isIntegral && decide (x.truncate.natAbs < 9000000000000000) then .int x.truncate
  else .double x

/-- The name of an arithmetic operator in messages. -/
def operatorName : BinaryOp → String
  | .mul => "Mul"
  | .div => "Div"
  | .rem => "Rem"
  | .add => "Add"
  | .sub => "Sub"
  | .lt => "Lt"
  | .le => "Le"
  | .gt => "Gt"
  | .ge => "Ge"
  | .eq => "Eq"
  | .ne => "Ne"
  | .and => "And"
  | .or => "Or"

/-- Numbers are equal if their doubles are; all else as data. -/
def equal (a b : Json) : Bool :=
  match a.double?, b.double? with
  | some x, some y => x.beq y
  | _, _ => a.same b

def compare (a b : Json) : Result Ordering :=
  match a, b with
  | .str s, .str t => .ok (Ord.compare s t)
  | a, b =>
    match a.double?, b.double? with
    | some x, some y => .ok (x.compare y)
    | _, _ => .error (.type "compare" ("cannot compare " ++ a.text ++ " with " ++ b.text))

/-- An integer result that fits 64 bits with a sign. -/
def inRange? (i : Int) : Option Int := if Json.inInt64 i then some i else none

/-- The exact result on integers of 64 bits, where it is such an integer again. -/
def exactResult? (op : BinaryOp) (x y : Int) : Option Int :=
  match op with
  | .add => inRange? (x + y)
  | .sub => inRange? (x - y)
  | .mul => inRange? (x * y)
  | .div => if x.tmod y = 0 then inRange? (x.tdiv y) else none
  | .rem => if Json.inInt64 (x.tdiv y) then inRange? (x.tmod y) else none
  | _ => none

def onDoubles (op : BinaryOp) (x y : Double) : Result Json :=
  match op with
  | .add => ofDouble (x.add? y)
  | .sub => ofDouble (x.sub? y)
  | .mul => ofDouble (x.mul? y)
  | .div => if y.isZero then .error .divisionByZero else ofDouble (x.div? y)
  | .rem => if y.isZero then .error .divisionByZero else ofDouble (x.rem? y)
  | op => .error (.type (operatorName op) "not an arithmetic operator")

/-- Integers of 64 bits are divided by no zero and give an exact result if there is one; all other
numbers are computed with as doubles. -/
def arithmetic (op : BinaryOp) (a b : Json) : Result Json :=
  match a.double?, b.double? with
  | some x, some y =>
    match a.int64?, b.int64? with
    | some i, some j =>
      if (op = .div ∨ op = .rem) ∧ j = 0 then .error .divisionByZero
      else match exactResult? op i j with
        | some k => .ok (.int k)
        | none => onDoubles op x y
    | _, _ => onDoubles op x y
  | _, _ =>
    .error (.type (operatorName op) (a.text ++ " and " ++ b.text ++ " are not numbers"))

def isString : Json → Bool
  | .str _ => true
  | _ => false

/-- Every operator but `&&` and `||`, which do not always evaluate their second operand. -/
def binary (op : BinaryOp) (a b : Json) : Result Json :=
  match op with
  | .eq => .ok (.bool (equal a b))
  | .ne => .ok (.bool (!equal a b))
  | .lt => do pure (.bool ((← compare a b).isLT))
  | .le => do pure (.bool ((← compare a b).isLE))
  | .gt => do pure (.bool ((← compare a b).isGT))
  | .ge => do pure (.bool ((← compare a b).isGE))
  | .add =>
    if isString a || isString b then .ok (.str (a.display ++ b.display)) else arithmetic .add a b
  | op => arithmetic op a b

def negate (value : Json) : Result Json :=
  match value.double? with
  | none => .error (.type "-" (value.text ++ " is not a number"))
  | some x =>
    match value.int64?.bind fun i => inRange? (-i) with
    | some i => .ok (.int i)
    | none => .ok (.double x.neg)

def memberOf (name : String) (target : Json) : Result Json :=
  match target with
  | .obj fields => .ok ((Json.Fields.get? name fields).getD .null)
  | .null => .ok .null
  | other => .error (.type ("." ++ name) (other.text ++ " has no fields"))

def itemAt (items : List Json) (key : Json) : Json :=
  match key with
  | .int (.ofNat i) => items[i]?.getD .null
  | _ => .null

def indexed (target key : Json) : Result Json :=
  let refused := EvalError.type "[]" ("cannot index " ++ target.text ++ " with " ++ key.text)
  match target, key with
  | .arr items, .int i => .ok (itemAt items (.int i))
  | .arr _, .double _ => .ok .null
  | .obj fields, .str name => .ok ((Json.Fields.get? name fields).getD .null)
  | .null, _ => .ok .null
  | _, _ => .error refused

def numberArg (function : String) (value : Json) : Result Double :=
  match value.double? with
  | some x => .ok x
  | none => .error (.type function (value.text ++ " is not a number"))

def stringArg (function : String) (value : Json) : Result String :=
  match value with
  | .str s => .ok s
  | value => .error (.type function (value.text ++ " is not a string"))

def dateArg (value : Json) : Result Instant :=
  match value with
  | .str s =>
    match Instant.read s.toList with
    | .ok t => .ok t
    | .error _ => .error (.invalidDate s)
  | value => .error (.invalidDate value.text)

/-- Several numbers, or one array of numbers; at least one. -/
def numberArgs (function : String) (arguments : List Json) : Result (List Double) :=
  let values := match arguments with
    | [.arr items] => items
    | arguments => arguments
  if values.isEmpty then .error (.arity function "at least 1" 0)
  else values.mapM (numberArg function)

def allInt64 (arguments : List Json) : Bool :=
  arguments.all fun
    | .arr items => items.all fun item => item.int64?.isSome
    | value => value.int64?.isSome

/-- An integral result of integers is an integer where doubles tell them apart. -/
def keepKind (arguments : List Json) (x : Option Double) : Result Json :=
  match x with
  | some y => if allInt64 arguments then .ok (integral y) else .ok (.double y)
  | none => ofDouble none

def smaller (x y : Double) : Double := if y.compare x = .lt then y else x

def larger (x y : Double) : Double := if y.compare x = .gt then y else x

def foldFirst (f : Double → Double → Double) : List Double → Option Double
  | [] => none
  | x :: rest => some (rest.foldl f x)

def toInt32 (x : Double) : Int := max (-power 2 31) (min (power 2 31 - 1) x.truncate)

/-- Rounded to some decimal places; zero or fewer places round to an integer. -/
def rounded (x : Double) (places : Int) : Result Json :=
  if places ≤ 0 then .ok (integral (x.withInteger x.round))
  else ofDouble do
    let scale ← (Double.ofInt 10).pow? places.toNat
    let scaled ← x.mul? scale
    (scaled.withInteger scaled.round).div? scale

def lengthOf (value : Json) : Result Json :=
  match value with
  | .str s => .ok (.int s.length)
  | .arr items => .ok (.int items.length)
  | .obj fields => .ok (.int fields.length)
  | .null => .ok (.int 0)
  | other => .error (.type "len" (other.text ++ " has no length"))

def isInfix (needle : List Char) : List Char → Bool
  | [] => needle.isEmpty
  | c :: rest => needle.isPrefixOf (c :: rest) || isInfix needle rest

def contains (target sought : Json) : Result Json :=
  match target with
  | .str s => .ok (.bool (isInfix sought.display.toList s.toList))
  | .arr items => .ok (.bool (items.any fun item => equal item sought))
  | other => .error (.type "contains" ("cannot search " ++ other.text))

def shiftDays (date : Instant) (shown : Json) (days : Double) : Result Json :=
  if !days.isIntegral then
    .error (.type "addDays" (String.ofList days.plainText ++ " is not a whole number of days"))
  else match date.addDays? days.truncate with
    | some t => .ok (.str t.text)
    | none => .error (.invalidDate shown.display)

def total (numbers : List Double) : Option Double :=
  numbers.foldlM Double.add? Double.zero.neg

/-- The functions, on evaluated arguments. -/
def call (function : String) (arguments : List Json) : Result Json :=
  let one (use : Json → Result Json) : Result Json :=
    match arguments with
    | [a] => use a
    | _ => .error (.arity function "1" arguments.length)
  let two (use : Json → Json → Result Json) : Result Json :=
    match arguments with
    | [a, b] => use a b
    | _ => .error (.arity function "2" arguments.length)
  if function = "abs" then
    one fun a => do keepKind arguments (some (← numberArg function a).abs)
  else if function = "min" then do
    keepKind arguments (foldFirst smaller (← numberArgs function arguments))
  else if function = "max" then do
    keepKind arguments (foldFirst larger (← numberArgs function arguments))
  else if function = "round" then
    match arguments with
    | [a] => do rounded (← numberArg function a) 0
    | [a, places] => do
      let x ← numberArg function a
      rounded x (toInt32 (← numberArg function places))
    | _ => .error (.arity function "1 or 2" arguments.length)
  else if function = "floor" then
    one fun a => do
      let x ← numberArg function a
      pure (integral (x.withInteger x.floor))
  else if function = "ceil" then
    one fun a => do
      let x ← numberArg function a
      pure (integral (x.withInteger x.ceil))
  else if function = "len" then one lengthOf
  else if function = "sum" then
    one fun
      | .arr items => do keepKind arguments (total (← items.mapM (numberArg function)))
      | _ => .error (.type function "expects an array")
  else if function = "upper" then
    one fun a => do pure (.str (String.ofList (Text.toUpper (← stringArg function a).toList)))
  else if function = "lower" then
    one fun a => do pure (.str (String.ofList (Text.toLower (← stringArg function a).toList)))
  else if function = "concat" then .ok (.str (String.join (arguments.map Json.display)))
  else if function = "contains" then two contains
  else if function = "year" then one fun a => do pure (.int (← dateArg a).localTime.date.year)
  else if function = "month" then one fun a => do pure (.int (← dateArg a).localTime.date.month)
  else if function = "day" then one fun a => do pure (.int (← dateArg a).localTime.date.day)
  else if function = "addDays" then
    two fun a b => do
      let date ← dateArg a
      shiftDays date a (← numberArg function b)
  else if function = "daysBetween" then
    two fun a b => do
      let first ← dateArg a
      pure (.int (first.daysUntil (← dateArg b)))
  else .error (.unknownFunction function)

end Evaluation

namespace Expression

open Evaluation

mutual

/-- The value of an expression. Nothing but the scope has an influence on it. -/
def evaluate (scope : Scope) : Expression → Result Json
  | literal value => .ok value
  | ident name => .ok (scope.lookup name)
  | member target name => do memberOf name (← evaluate scope target)
  | index target key => do
    let target ← evaluate scope target
    indexed target (← evaluate scope key)
  | neg operand => do negate (← evaluate scope operand)
  | not operand => do pure (.bool (!(← evaluate scope operand).truthy))
  | binary op lhs rhs => do
    let a ← evaluate scope lhs
    if op = .and ∧ !a.truthy then pure (.bool false)
    else if op = .or ∧ a.truthy then pure (.bool true)
    else
      let b ← evaluate scope rhs
      if op = .and ∨ op = .or then pure (.bool b.truthy) else Evaluation.binary op a b
  | cond condition whenTrue whenFalse => do
    if (← evaluate scope condition).truthy then evaluate scope whenTrue
    else evaluate scope whenFalse
  | call function arguments => do
    Evaluation.call function (← evaluateAll scope arguments)
  | array items => do pure (.arr (← evaluateAll scope items))

def evaluateAll (scope : Scope) : List Expression → Result (List Json)
  | [] => .ok []
  | e :: rest => do
    let value ← evaluate scope e
    pure (value :: (← evaluateAll scope rest))

end

end Expression

end ClauseTemplates
