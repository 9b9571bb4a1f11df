import ClauseTemplates.Format.DateTime
import ClauseTemplates.Schema.Builtin

namespace ClauseTemplates

/-- A part of a format for amounts of money. -/
inductive MoneyToken
  | literal (text : List Char)
  | amount (format : NumberFormat)
  | code
  | symbol
  deriving DecidableEq

structure MonetaryFormat where
  tokens : List MoneyToken
  deriving DecidableEq

namespace MonetaryFormat

def standard : List Char := "0,0.00 CCC".toList

def isSeparator (c : Char) : Bool := !(c.isDigit || c == 'C' || c == 'K')

/-- The zeros in front, at least one, and the text after them. -/
def zeros? (cs : List Char) : Option (List Char × List Char) :=
  match cs.span (· == '0') with
  | ([], _) => none
  | found => some found

/-- The number pattern in front: with groups and a fraction, with a fraction, or a single zero. -/
def pattern? : List Char → Option (List Char × List Char)
  | '0' :: rest =>
    let groups : Option (List Char × List Char) :=
      match rest with
      | mark :: '0' :: point :: rest =>
        if isSeparator mark && isSeparator point then
          (zeros? rest).map fun (zeros, rest) => ('0' :: mark :: '0' :: point :: zeros, rest)
        else none
      | _ => none
    let fraction : Option (List Char × List Char) :=
      match rest with
      | point :: rest =>
        if isSeparator point then
          (zeros? rest).map fun (zeros, rest) => ('0' :: point :: zeros, rest)
        else none
      | _ => none
    (groups.or fraction).or (some (['0'], rest))
  | _ => none

def token? (cs : List Char) : Option (Except String MoneyToken × List Char) :=
  match cs with
  | 'C' :: 'C' :: 'C' :: rest => some (.ok .code, rest)
  | 'K' :: rest => some (.ok .symbol, rest)
  | cs => (pattern? cs).map fun (pattern, rest) =>
      ((NumberFormat.double (some pattern)).map .amount, rest)

def withPending (pending : List Char) (tokens : List MoneyToken) : List MoneyToken :=
  if pending.isEmpty then tokens else .literal pending.reverse :: tokens

def tokensFrom : Nat → List Char → List Char → Except String (List MoneyToken)
  | 0, pending, _ => .ok (withPending pending [])
  | _ + 1, pending, [] => .ok (withPending pending [])
  | fuel + 1, pending, c :: rest =>
    match token? (c :: rest) with
    | some (token, rest) => do
      let token ← token
      pure (withPending pending (token :: (← tokensFrom fuel [] rest)))
    | none => tokensFrom fuel (c :: pending) rest

def isAmount : MoneyToken → Bool
  | .amount _ => true
  | _ => false

def isCurrency : MoneyToken → Bool
  | .code => true
  | .symbol => true
  | _ => false

/-- A format with one number pattern and at least one of the code and the symbol. -/
def compile (format : Option (List Char)) : Except String MonetaryFormat := do
  let format := format.getD standard
  let tokens ← tokensFrom (format.length + 1) [] format
  let amounts := (tokens.filter isAmount).length
  if amounts ≠ 1 then
    .error ("expected one amount pattern, found " ++ toString amounts)
  else if !tokens.any isCurrency then .error "expected \x60CCC\x60 or \x60K\x60"
  else .ok ⟨tokens⟩

/-- What a token reads of an amount. -/
inductive Part
  | nothing
  | amount (x : Option Double)
  | currency (code : String)

open Scanner

def tokenScanner : MoneyToken → Scanner Char Part
  | .literal text => do exactly text; pure .nothing
  | .amount format => do pure (.amount (← format.doubleScanner))
  | .code => do
    pure (.currency (← oneOf (currencyCodes.map fun code => (code.toList, code))))
  | .symbol => do
    pure (.currency (← oneOf
      (currencySymbols.map fun (code, symbol) => (symbol.toList, code))))

def partScanner : List MoneyToken → Scanner Char (List Part)
  | [] => succeed []
  | token :: rest => do
    let part ← tokenScanner token
    pure (part :: (← partScanner rest))

/-- The one currency of the parts, which must not name two. -/
def currencyOf (parts : List Part) : Except String (Option String) :=
  parts.foldlM (fun found part =>
    match part, found with
    | .currency code, some previous =>
      if previous = code then .ok found
      else .error ("currency " ++ code ++ " contradicts " ++ previous)
    | .currency code, none => .ok (some code)
    | _, found => .ok found) none

def amountOf (parts : List Part) : Option (Option Double) :=
  parts.foldl (fun found part =>
    match part with
    | .amount x => some x
    | _ => found) none

/-- The amount as a record. One past the range of doubles is null. -/
def assemble (parts : List Part) : Except String Json := do
  let currency ← currencyOf parts
  match amountOf parts, currency with
  | none, _ => .error "missing amount"
  | _, none => .error "missing currency"
  | some x, some code =>
    .ok (Json.record
      [("$class", .str monetaryAmount), ("doubleValue", (x.map Json.double).getD .null),
       ("currencyCode", .str code)])

def scanner (format : MonetaryFormat) : Scanner Char Json :=
  (partScanner format.tokens).tryMap assemble

def tokenText (x : Double) (code : String) : MoneyToken → Except String (List Char)
  | .literal text => .ok text
  | .amount format => .ok (format.writtenDouble x)
  | .code => .ok code.toList
  | .symbol =>
    match currencySymbol? code with
    | some symbol => .ok symbol.toList
    | none => .error ("no symbol for " ++ code)

/-- The text of a value, or why there is none. -/
def draft (format : MonetaryFormat) (value : Json) : Except String (List Char) :=
  match (value.get? "doubleValue").bind Json.double? with
  | none => .error (value.text ++ " has no doubleValue")
  | some x =>
    match (value.get? "currencyCode").bind Json.string? with
    | none => .error (value.text ++ " has no currencyCode")
    | some code => do pure (← format.tokens.mapM (tokenText x code)).flatten

end MonetaryFormat

end ClauseTemplates
