import ClauseTemplates.Number.Decimal

namespace ClauseTemplates

/-- A data value. Integers and doubles are different values; the fields of an object are sorted
by name and no name stands twice. -/
inductive Json
  | null
  | bool (b : Bool)
  | int (i : Int)
  | double (x : Double)
  | str (s : String)
  | arr (items : List Json)
  | obj (fields : List (String × Json))

namespace Json

instance : Inhabited Json := ⟨.null⟩

abbrev Fields := List (String × Json)

namespace Fields

def get? (name : String) (fields : Fields) : Option Json := fields.lookup name

/-- Writes a field, in place of the one of the same name if there is one. -/
def insert (name : String) (value : Json) : Fields → Fields
  | [] => [(name, value)]
  | (n, v) :: rest =>
    if name = n then (name, value) :: rest
    else if name < n then (name, value) :: (n, v) :: rest
    else (n, v) :: insert name value rest

/-- Writes a field unless there is one of this name. -/
def insertNew (name : String) (value : Json) (fields : Fields) : Fields :=
  if (get? name fields).isSome then fields else insert name value fields

/-- Sorted; of two fields of one name the later one stays. -/
def ofList (fields : List (String × Json)) : Fields :=
  fields.foldl (fun sorted field => insert field.1 field.2 sorted) []

def string? (name : String) (fields : Fields) : Option String :=
  match get? name fields with
  | some (.str s) => some s
  | _ => none

/-- The text of a field; an absent field and null are both no text. -/
def optionalString? (name : String) (fields : Fields) : Option (Option String) :=
  match get? name fields with
  | none => some none
  | some .null => some none
  | some (.str s) => some (some s)
  | some _ => none

end Fields

/-- Null for no text. -/
def ofString? (s : Option String) : Json := (s.map Json.str).getD .null

def record (fields : List (String × Json)) : Json := .obj (Fields.ofList fields)

/-- The field of an object; other values have none. -/
def get? (name : String) : Json → Option Json
  | .obj fields => Fields.get? name fields
  | _ => none

def string? : Json → Option String
  | .str s => some s
  | _ => none

def bool? : Json → Option Bool
  | .bool b => some b
  | _ => none

def isNull : Json → Bool
  | .null => true
  | _ => false

def isObject : Json → Bool
  | .obj _ => true
  | _ => false

def inInt64 (i : Int) : Bool := decide (-power 2 63 ≤ i ∧ i < power 2 63)

/-- Integers that fit 64 bits with a sign. -/
def int64? : Json → Option Int
  | .int i => if inInt64 i then some i else none
  | _ => none

/-- The value of a number as a double. -/
def double? : Json → Option Double
  | .int i => some (Double.ofInt i)
  | .double x => some x
  | _ => none

mutual

/-- Equality of data: doubles compare by value, and no integer equals a double. -/
def same : Json → Json → Bool
  | .null, .null => true
  | .bool a, .bool b => a == b
  | .int a, .int b => a == b
  | .double a, .double b => a.beq b
  | .str a, .str b => a == b
  | .arr a, .arr b => sameItems a b
  | .obj a, .obj b => sameFields a b
  | _, _ => false

def sameItems : List Json → List Json → Bool
  | [], [] => true
  | a :: as, b :: bs => same a b && sameItems as bs
  | _, _ => false

def sameFields : List (String × Json) → List (String × Json) → Bool
  | [], [] => true
  | (m, a) :: as, (n, b) :: bs => m == n && same a b && sameFields as bs
  | _, _ => false

end

mutual

/-- How many arrays and objects lie inside one another. -/
def depth : Json → Nat
  | .arr items => depthItems items + 1
  | .obj fields => depthFields fields + 1
  | _ => 0

def depthItems : List Json → Nat
  | [] => 0
  | item :: rest => max (depth item) (depthItems rest)

def depthFields : List (String × Json) → Nat
  | [] => 0
  | (_, value) :: rest => max (depth value) (depthFields rest)

end

end Json

end ClauseTemplates
