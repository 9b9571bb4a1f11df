import ClauseTemplates.Error
import ClauseTemplates.Expression.Evaluation
import ClauseTemplates.Schema.Placeholder

namespace ClauseTemplates

/-- The identifier in a reference: what follows the first number sign. -/
def resourceId? (reference : String) : Option String := do
  let rest ← Text.dropStart? "resource:".toList reference.toList
  let (_, id) ← Text.splitAt? '#' rest
  some (String.ofList id)

/-- What drafting does not change. Formulas see the whole data, wherever they stand. -/
structure DraftContext where
  data : Json
  now : Instant
  kind : TemplateKind

/-- The entries requested so far, and how many identifiers were given out. -/
structure DraftState where
  table : Table
  identifiers : Nat

/-- The state outlives errors. -/
abbrev Drafting := ExceptT Error (StateM DraftState)

namespace Drafting

def fail (e : DraftError) : Drafting α := throw (.draft e)

/-- The value of a name; null is none. -/
def field? (scope : Json) (name : String) : Option Json :=
  let value := if name = thisName then some scope else scope.get? name
  value.filter fun value => !value.isNull

def required (scope : Json) (name : String) : Drafting Json :=
  match field? scope name with
  | some value => pure value
  | none => fail (.missingField name)

def array (scope : Json) (name : String) : Drafting (List Json) := do
  match ← required scope name with
  | .arr items => pure items
  | _ => fail (.typeMismatch name "an array")

def object (scope : Json) (name : String) : Drafting Json := do
  let value ← required scope name
  if value.isObject then pure value else fail (.typeMismatch name "an object")

def fragment (text : List Char) : Doc := .leaf (.fragment (String.ofList text))

def entry (key : EntryKey) : Drafting Entry := do
  let s ← get
  let (result, table) := s.table.entry key
  set { s with table := table }
  match result with
  | .ok entry => pure entry
  | .error e => throw (.registry e)

def freshIdentifier : Drafting Json := do
  let s ← get
  set { s with identifiers := s.identifiers + 1 }
  pure (.str (Identifier.numbered s.identifiers))

/-- A value with its class, unless it has one, and a fresh identifier. -/
def record (value : Json) (type : Option String) (identifier : String) : Drafting Json := do
  match value with
  | .obj fields =>
    let fields := match type with
      | some type => Json.Fields.insertNew "$class" (.str type) fields
      | none => fields
    pure (.obj (Json.Fields.insert identifier (← freshIdentifier) fields))
  | value => pure value

def evaluate (name code : String) (data : Json) (now : Instant) : Drafting Json := do
  match Expression.read code with
  | .error e => throw (.expression e)
  | .ok e =>
    match e.evaluate (Scope.ofData data now) with
    | .ok value => pure value
    | .error e => fail (.evaluation name e.message)

def enumVariable (v : EnumVariable) (scope : Json) : Drafting (List Doc) := do
  let value ← required scope v.name
  let refused := DraftError.invalidValue v.name v.type
    (value.text ++ " is not one of " ++ ", ".intercalate v.values)
  match value with
  | .str s => if v.values.contains s then pure [fragment s.toList] else fail refused
  | _ => fail refused

/-- Values of compound types are drafted by `compound`, which gets the type and the template of its
records. -/
def variableDocs (compound : String → List Node → Json → Drafting (List Doc)) (v : Variable)
    (scope : Json) : Drafting (List Doc) := do
  let some type := v.type | throw (.registry (.unbound v.name))
  let value ← required scope v.name
  if v.identifiedBy.isSome then
    match value.string?.bind resourceId? with
    | some id => pure [fragment (Text.quoted id.toList)]
    | none => fail (.invalidValue v.name type (value.text ++ " is not a resource reference"))
  else
    match ← entry ⟨type, v.format⟩ with
    | .scalar program =>
      match program.draft value with
      | .ok text => pure [fragment text]
      | .error reason => fail (.invalidValue v.name type reason)
    | .compound found children =>
      if value.isObject then compound found children value
      else fail (.typeMismatch v.name ("a " ++ type ++ " object"))

/-- Drafts a branch whose result is not shown. The data need not fit it, so its errors do not
count. -/
def ignored (branch : Drafting (List Doc)) : Drafting Unit :=
  tryCatch (do let _ ← branch; pure ()) fun _ => pure ()

def isLive (context : DraftContext) (name : String) (condition : Option String)
    (scope : Json) : Drafting Bool := do
  match condition with
  | some code => pure (← evaluate name code scope context.now).truthy
  | none =>
    match ← required scope name with
    | .bool b => pure b
    | _ => fail (.typeMismatch name "a boolean")

/-- What `each` makes of every item, one after the other. -/
def forItems (each : Json → Drafting α) : List Json → Drafting (List α)
  | [] => pure []
  | item :: rest => do
    let made ← each item
    pure (made :: (← forItems each rest))

/-- The documents of the items of a join with the separator between them. -/
def joined (separator : String) : List (List Doc) → List Doc
  | [] => []
  | [docs] => docs
  | docs :: rest =>
    if separator = "" then docs ++ joined separator rest
    else docs ++ .leaf (.text separator) :: joined separator rest

mutual

/-- The documents that show a value through a node. -/
def node (context : DraftContext) (compound : String → List Node → Json → Drafting (List Doc)) :
    Node → Json → Drafting (List Doc)
  | .variable v, scope => variableDocs compound v scope
  | .enumVariable v, scope => enumVariable v scope
  | .formula f, _ => do
    let value ← evaluate f.name f.code context.data context.now
    pure [.leaf (.formula f.name value.display)]
  | .conditional name condition whenTrue whenFalse, scope => do
    if ← isLive context name condition scope then
      ignored (nodes context compound whenFalse .null)
      nodes context compound whenTrue scope
    else
      ignored (nodes context compound whenTrue scope)
      nodes context compound whenFalse .null
  | .optional name type whenSome whenNone, scope => do
    match field? scope name with
    | some value => nodes context compound whenSome value
    | none =>
      if let some type := type then
        ignored (nodes context compound whenSome (placeholder (← get).table.schema type))
      nodes context compound whenNone .null
  | .within name _ children, scope => do
    nodes context compound children (← object scope name)
  | .list name kind _ children, scope => do
    let items ← array scope name
    if items.isEmpty then fail (.emptyList name)
    let docs ← forItems (fun item => nodes context compound children item) items
    pure [.node (.list kind 1) (docs.map (.node .item))]
  | .join name _ separator children, scope => do
    let items ← array scope name
    pure (joined separator (← forItems (fun item => nodes context compound children item) items))
  | .clause name type src condition children, scope => do
    let value ← object scope name
    let shown ← match condition with
      | some code => do pure (← evaluate name code value context.now).truthy
      | none => pure true
    if !shown then pure []
    else
      let docs ← nodes context compound children value
      match context.kind with
      | .clause => pure docs
      | .contract =>
        let identifier := (← get).table.settings.clauseIdentifier
        pure [.node (.clause name src (some (← record value type identifier))) docs]
  | .contract _ children, scope => nodes context compound children scope
  | .leaf l, _ => pure [.leaf l]
  | .markup frame children, scope => do
    pure [.node frame (← nodes context compound children scope)]

def nodes (context : DraftContext) (compound : String → List Node → Json → Drafting (List Doc)) :
    List Node → Json → Drafting (List Doc)
  | [], _ => pure []
  | n :: rest, scope => do
    let docs ← node context compound n scope
    pure (docs ++ (← nodes context compound rest scope))

end

/-- Drafts records of compound types with fewer than `fuel` records inside one another. Nothing else
ends drafting where a type reaches itself through an optional property: an absent value is drafted from
a placeholder, in which the property is absent again. -/
def compound (context : DraftContext) : Nat → String → List Node → Json → Drafting (List Doc)
  | 0, type, _, _ => throw (.registry (.unknownParser type))
  | fuel + 1, _, children, value => nodes context (compound context fuel) children value

/-- Enough levels for the records in some data and for placeholders of absent optional values: each
placeholder has few levels, and one inside another is of a further type. This is so unless a type
reaches itself through an optional property. Drafting an absent one never returns then, and is only cut
off here. -/
def levels (schema : Schema) (data : Json) : Nat :=
  data.depth + (placeholderLevels + 2) * (schema.declarations.length + 2)

end Drafting

end ClauseTemplates
