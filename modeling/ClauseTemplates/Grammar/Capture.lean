import ClauseTemplates.Json.Written
import ClauseTemplates.Template.Node
import ClauseTemplates.Text.Position

namespace ClauseTemplates

mutual

/-- What a text shows of a value. -/
inductive Captured
  | value (v : Json)
  /-- A record of a class; `identifier` is the field that receives a fresh identifier. -/
  | record (type : String) (identifier : Option String) (slots : List Slot)
  /-- The value that stands alone among slots, under the name of the current value. -/
  | unwrapped (slots : List Slot)
  | array (items : List Captured)

/-- A name in a template, what the text shows for it, and where. -/
inductive Slot
  | mk (name : String) (value : Captured) (start : Nat)

end

def Slot.name : Slot → String
  | .mk name _ _ => name

def Slot.isThis (slot : Slot) : Bool := slot.name == thisName

/-- A name captured twice, with different values. -/
structure Inconsistency where
  name : String
  first : Json
  second : Json
  position : Position

def Inconsistency.message (e : Inconsistency) : String :=
  "\x60" ++ e.name ++ "\x60 captured as " ++ e.first.text ++ " and later as " ++ e.second.text ++
    " (at " ++ toString e.position.line ++ ":" ++ toString e.position.column ++ ")"

namespace Identifier

def hexDigits (width n : Nat) : List Char :=
  let digits := Nat.toDigits 16 (n % power 16 width)
  List.replicate (width - digits.length) '0' ++ digits

/-- The universally unique identifier that carries a number in its random bits. -/
def numbered (n : Nat) : String :=
  let low := hexDigits 12 n
  let middle := hexDigits 3 (n / power 2 48 % power 2 12)
  let next := hexDigits 3 (n / power 2 60)
  let high := hexDigits 12 (n / power 2 72)
  String.ofList (high.take 8 ++ '-' :: high.drop 8 ++ '-' :: '4' :: next ++ '-' :: '8' :: middle ++
    '-' :: low)

end Identifier

/-- Makes records of captured slots; the state counts the identifiers that were given out. -/
abbrev Folding := StateT Nat (Except Inconsistency)

namespace Captured

def freshIdentifier : Folding Json := do
  let n ← get
  set (n + 1)
  pure (.str (Identifier.numbered n))

def agree (text : List Char) (name : String) (start : Nat) (first second : Json) :
    Folding Unit :=
  if first.same second then pure ()
  else throw ⟨name, first, second, Position.locate text start⟩

mutual

/-- The data that a text shows, where all values captured under one name agree. -/
def fold (text : List Char) : Captured → Folding Json
  | .value v => pure v
  | .array items => do pure (.arr (← foldItems text items))
  | .unwrapped slots => do pure ((← foldThis text none slots).getD .null)
  | .record type identifier slots => do
    let fields ← foldSlots text [("$class", .str type)] slots
    match identifier with
    | none => pure (.obj fields)
    | some name =>
      if (Json.Fields.get? name fields).isSome then pure (.obj fields)
      else pure (.obj (Json.Fields.insert name (← freshIdentifier) fields))

def foldItems (text : List Char) : List Captured → Folding (List Json)
  | [] => pure []
  | item :: rest => do
    let value ← fold text item
    pure (value :: (← foldItems text rest))

/-- Adds the slots of a record to its fields. -/
def foldSlots (text : List Char) (fields : Json.Fields) : List Slot → Folding Json.Fields
  | [] => pure fields
  | .mk name captured start :: rest =>
    if name = thisName then foldSlots text fields rest
    else do
      let value ← fold text captured
      match Json.Fields.get? name fields with
      | some first =>
        agree text name start first value
        foldSlots text fields rest
      | none => foldSlots text (Json.Fields.insert name value fields) rest

/-- The value of the slots for the current value itself. -/
def foldThis (text : List Char) (found : Option Json) : List Slot → Folding (Option Json)
  | [] => pure found
  | .mk name captured start :: rest =>
    if name ≠ thisName then foldThis text found rest
    else do
      let value ← fold text captured
      match found with
      | some first =>
        agree text thisName start first value
        foldThis text found rest
      | none => foldThis text (some value) rest

end

end Captured

end ClauseTemplates
