import ClauseTemplates.Grammar.Scanning
import ClauseTemplates.Entry.Table

namespace ClauseTemplates

/-- What a line can stand inside of. -/
inductive Nesting
  | quote
  | item (kind : ListKind)
  deriving DecidableEq

/-- What stands in front of the lines inside. -/
def Nesting.margin : Nesting → List Char
  | quote => Markdown.quoteMark
  | item kind => Markdown.itemIndent kind

/-- The state of compiling one template: where the current lines stand, the compound types that are
being compiled, and those that are done. -/
structure CompileState where
  table : Table
  nesting : List Nesting
  inProgress : List String
  compounds : Grammar.Compounds

/-- The state outlives errors. -/
abbrev Compiling := ExceptT EntryError (StateM CompileState)

namespace Compiling

def start (table : Table) : CompileState := ⟨table, [], [], []⟩

def margin : Compiling (List Char) := do
  pure ((← get).nesting.flatMap Nesting.margin)

/-- Compiles lines inside of something; afterwards they stand where they stood before. -/
def inside (nesting : Nesting) (act : Compiling α) : Compiling α := do
  modify fun s => { s with nesting := s.nesting ++ [nesting] }
  let result ← observing act
  modify fun s => { s with nesting := s.nesting.dropLast }
  result
where
  observing (act : Compiling α) : Compiling (Compiling α) :=
    tryCatch (do let a ← act; pure (pure a)) fun e => pure (throw e)

def bound (name : String) (type : Option String) : Compiling String :=
  match type with
  | some type => pure type
  | none => throw (.unbound name)

def entry (key : EntryKey) : Compiling Entry := do
  let s ← get
  let (result, table) := s.table.entry key
  set { s with table := table }
  liftExcept result
where
  liftExcept (result : Except EntryError Entry) : Compiling Entry :=
    match result with
    | .ok entry => pure entry
    | .error e => throw e

/-- The record type of elements whose template shows no current value. -/
def elementType (type : String) : Compiling (Option String) := do
  pure (if (← get).table.schema.isCompound type then some type else none)

/-- The grammar of blocks with separators between them. A block that may be left out is left out
together with its separator: the first component of the result is for blocks at the start, the
second for blocks behind others. -/
def assemble (separator : List Char) : List (Grammar × Bool) → Grammar × Grammar
  | [] => (.nothing, .nothing)
  | (block, elidable) :: rest =>
    let (first, later) := assemble separator rest
    let presentFirst := Grammar.seq block later
    let presentLater := Grammar.seq (.text separator) (.seq block later)
    if elidable then (.either presentFirst first, .either presentLater later)
    else (presentFirst, presentLater)

/-- Whether a text may leave a block out: a clause that depends on a condition, or one of a clause
template that is empty. -/
def isElidable (kind : TemplateKind) : Node → Bool
  | .clause _ _ _ condition children =>
    condition.isSome || (kind == .clause && children.isEmpty)
  | _ => false

/-- A delimited clause region: its opening tag, its body on lines of their own, its closing tag. -/
def region (name : String) (src : Option String) (body : Grammar) : Compiling Grammar := do
  let line := Grammar.text (Markdown.newline (← margin))
  pure (.concat
    [.text (Markdown.clauseOpen name src), line, .optionally (.seq body line),
     .text Markdown.clauseClose])

def leaf (l : Leaf) : Compiling Grammar := do
  match l with
  | .formula _ _ => pure .formula
  | l => pure (.text (Markdown.leafText (← margin) l))

/-- The grammar of blocks where the current lines stand. -/
def inBlocks (each : Compiling (List (Grammar × Bool))) : Compiling Grammar := do
  let separator := Markdown.blockSeparator (← margin)
  pure (assemble separator (← each)).1

def listMark (bullet : Char) : ListKind → Grammar
  | .bullet => .text [bullet, ' ']
  | .ordered => .orderedMark

/-- Variables of compound types are compiled by `compound`, which gets the type and the template
of its records. -/
def variableValue (compound : String → List Node → Compiling Unit) (v : Variable) :
    Compiling ValueGrammar := do
  let type ← bound v.name v.type
  if v.identifiedBy.isSome then pure (.reference type)
  else
    match ← entry ⟨type, v.format⟩ with
    | .scalar program => pure (.scalar program)
    | .compound type children => do
      compound type children
      pure (.compound type)

mutual

/-- The grammar of the texts that a node is rendered to. -/
def node (kind : TemplateKind) (compound : String → List Node → Compiling Unit) :
    Node → Compiling Grammar
  | .variable v => do pure (.slot v.name (← variableValue compound v))
  | .enumVariable v => pure (.slot v.name (.enum v.values))
  | .formula _ => pure .formula
  | .conditional name condition whenTrue whenFalse => do
    let whenTrue ← inlines kind compound whenTrue
    let whenFalse ← inlines kind compound whenFalse
    if condition.isSome then pure (.either whenTrue whenFalse)
    else pure (.either (.flagged whenTrue name true) (.flagged whenFalse name false))
  | .optional name type whenSome whenNone => do
    let type ← elementType (← bound name type)
    let whenSome ← inlines kind compound whenSome
    let whenNone ← inlines kind compound whenNone
    pure (.either (.slot name (.element type whenSome)) whenNone)
  | .within name type children => do
    let type ← bound name type
    pure (.slot name (.record type none (← inlines kind compound children)))
  | .list name listKind type children => do
    let type ← bound name type
    let outer ← margin
    let item ← inside (.item listKind) (inBlocks (eachBlock kind compound children))
    let mark := listMark (← get).table.settings.bullet listKind
    pure (.slot name (.items (Markdown.newline outer) true
      (.element (← elementType type) (.seq mark item))))
  | .join name type separator children => do
    let type ← bound name type
    let item ← inlines kind compound children
    pure (.slot name (.items (Text.escaped separator.toList) false
      (.element (← elementType type) item)))
  | .clause name type src _ children => do
    let type ← bound name type
    let body ← inBlocks (eachBlock kind compound children)
    let body ← if kind = .contract then region name src body else pure body
    pure (.slot name (.record type (some (← get).table.settings.clauseIdentifier) body))
  | .contract _ children => inBlocks (eachBlock kind compound children)
  | .leaf l => leaf l
  | .markup (.document _) children => inBlocks (eachBlock kind compound children)
  | .markup .item children => inBlocks (eachBlock kind compound children)
  | .markup .paragraph children => inlines kind compound children
  | .markup (.heading level) children => do
    pure (.seq (.text (Markdown.headingMark level.toNat)) (← inlines kind compound children))
  | .markup .blockQuote children => do
    let body ← inside .quote (inBlocks (eachBlock kind compound children))
    pure (.seq (.text Markdown.quoteMark) body)
  | .markup (.list listKind start) children =>
    listItems kind compound listKind [] start.toNat children
  | .markup (.clause name src _) children => do
    region name src (← inBlocks (eachBlock kind compound children))
  | .markup .emph children => do
    pure (.concat [.text ['*'], ← inlines kind compound children, .text ['*']])
  | .markup .strong children => do
    pure (.concat [.text ['*', '*'], ← inlines kind compound children, .text ['*', '*']])

/-- The grammar of each block, and whether a text may leave it out. -/
def eachBlock (kind : TemplateKind) (compound : String → List Node → Compiling Unit) :
    List Node → Compiling (List (Grammar × Bool))
  | [] => pure []
  | block :: rest => do
    let grammar ← node kind compound block
    pure ((grammar, isElidable kind block) :: (← eachBlock kind compound rest))

def inlines (kind : TemplateKind) (compound : String → List Node → Compiling Unit) :
    List Node → Compiling Grammar
  | [] => pure .nothing
  | inline :: rest => do
    let grammar ← node kind compound inline
    pure (.seq grammar (← inlines kind compound rest))

/-- The items of a list that the template writes itself, with `lead` in front of the first. -/
def listItems (kind : TemplateKind) (compound : String → List Node → Compiling Unit)
    (listKind : ListKind) (lead : List Char) (number : Nat) : List Node → Compiling Grammar
  | [] => pure .nothing
  | item :: rest => do
    let mark := Markdown.itemMark (← get).table.settings.bullet listKind number
    let content ← inside (.item listKind) (node kind compound item)
    let outer ← margin
    let rest ← listItems kind compound listKind (Markdown.newline outer) (number + 1) rest
    pure (.concat [.text (lead ++ mark), content, rest])

end

/-- Compiles the records of a compound type, unless that is done or in progress: a type that
reaches itself refers to its own grammar. Every level inside has one type more in progress, so more
fuel than there are types is enough. -/
def compound (kind : TemplateKind) : Nat → String → List Node → Compiling Unit
  | 0, type, _ => throw (.unknownParser type)
  | fuel + 1, type, children => do
    let s ← get
    if (s.compounds.lookup type).isSome || s.inProgress.contains type then pure ()
    else
      set { s with inProgress := type :: s.inProgress }
      let body ← tryCatch (inlines kind (compound kind fuel) children) fun e => do
        modify fun s => { s with inProgress := s.inProgress.erase type }
        throw e
      modify fun s =>
        { s with
          inProgress := s.inProgress.erase type
          compounds := (type, .record type none body) :: s.compounds }

end Compiling

end ClauseTemplates
