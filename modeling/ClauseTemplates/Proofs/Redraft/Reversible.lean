import ClauseTemplates.Grammar.Compile
import ClauseTemplates.Proofs.Template.Branches
import ClauseTemplates.Proofs.Template.Names

namespace ClauseTemplates

/-- What a scope holds: a record, with the fields that parsing fills in by itself, or a single text of
one of some types. -/
inductive Held
  | record (filled : List String)
  | value (types : List String)

/-- Types whose values are written as they are read, whatever stands around them. -/
def plainTypes : List String := ["String", "Boolean"]

/-- A variable of a plain type or a reference, by a name that is a field. -/
def Variable.IsField (v : Variable) : Prop :=
  v.name ≠ thisName ∧ v.name ≠ "$class" ∧
    ((∃ type, v.type = some type ∧ v.identifiedBy.isSome ∧ '#' ∉ type.toList) ∨
      v.identifiedBy = none ∧ ∃ type ∈ plainTypes, v.type = some type)

/-- A variable that shows the current value. -/
def Variable.IsThis (v : Variable) (types : List String) : Prop :=
  v.name = thisName ∧ v.identifiedBy = none ∧
    ∃ type ∈ types, type ∈ plainTypes ∧ v.type = some type

section

variable (schema : Schema) (identifier : String)

mutual

/-- The nodes of templates whose accepted texts are the drafts of what they parse to. No optional
block is named for a field that parsing fills in, nothing is evaluated, and the current value is shown
only where it is a text. -/
def Node.Reversible : Held → Node → Prop
  | .record _, .variable v => v.IsField
  | .value types, .variable v => v.IsThis types
  | .record filled, .conditional name condition whenTrue whenFalse =>
    name ≠ thisName ∧ condition = none ∧ Node.EachReversible (.record filled) whenTrue ∧
      Node.EachReversible (.record filled) whenFalse
  | .record filled, .optional name type whenSome whenNone =>
    name ≠ thisName ∧ name ∉ filled ∧ Node.EachReversible (.record filled) whenNone ∧
      ((type = some "String" ∧ thisName ∈ Node.namesAll whenSome ∧
          Node.EachReversible (.value ["String"]) whenSome) ∨
        ((∃ record, type = some record ∧ schema.isCompound record) ∧
          Node.Exclusive (Node.blocksAll whenSome) (Node.namesAll whenSome) ∧
          Node.EachReversible (.record ["$class"]) whenSome))
  | .record _, .within name _ children =>
    name ≠ thisName ∧ Node.Exclusive (Node.blocksAll children) (Node.namesAll children) ∧
      Node.EachReversible (.record ["$class"]) children
  | .record _, .list name kind type children =>
    name ≠ thisName ∧ kind = .bullet ∧ type = some "String" ∧ thisName ∈ Node.namesAll children ∧
      Node.EachReversible (.value ["String"]) children
  | .record _, .join name type _ children =>
    name ≠ thisName ∧ type = some "String" ∧ thisName ∈ Node.namesAll children ∧
      Node.EachReversible (.value ["String"]) children
  | .record _, .clause name _ _ condition children =>
    name ≠ thisName ∧ condition = none ∧ children ≠ [] ∧
      Node.Exclusive (Node.blocksAll children) (Node.namesAll children) ∧
      Node.EachReversible (.record ["$class", identifier]) children
  | _, .leaf _ => True
  | held, .markup _ children => Node.EachReversible held children
  | _, _ => False

def Node.EachReversible : Held → List Node → Prop
  | _, [] => True
  | held, n :: rest => Node.Reversible held n ∧ Node.EachReversible held rest

end

end

theorem Node.Reversible.children {schema : Schema} {identifier : String} {held : Held} {frame : Frame}
    {children : List Node} (h : (Node.markup frame children).Reversible schema identifier held) :
    EachReversible schema identifier held children := by
  cases held <;> exact h

/-- No text leaves such a node out. -/
theorem Node.Reversible.not_elidable {schema : Schema} {identifier : String} {held : Held} {n : Node}
    (h : n.Reversible schema identifier held) : ¬Compiling.isElidable .clause n = true := by
  cases n with
  | clause name type src condition children =>
    cases held with
    | value _ => exact h.elim
    | record filled =>
      obtain ⟨_, rfl, hne, _⟩ := h
      simp [Compiling.isElidable, hne]
  | _ => simp [Compiling.isElidable]

mutual

/-- Only static markup is reversible where no name stands for anything. -/
theorem Node.Reversible.nothing {schema : Schema} {identifier : String} {filled : List String} :
    ∀ {n : Node}, n.Reversible schema identifier (.record filled) → n.Scoped false →
      n.Reversible schema identifier (.value [])
  | .variable _, _, hs => Bool.noConfusion hs
  | .conditional _ _ _ _, ⟨_, hc, _⟩, ⟨hs, _⟩ => Bool.noConfusion (hs hc)
  | .optional _ _ _ _, _, ⟨hs, _⟩ => Bool.noConfusion hs
  | .within _ _ _, _, ⟨hs, _⟩ => Bool.noConfusion hs
  | .list _ _ _ _, _, ⟨hs, _⟩ => Bool.noConfusion hs
  | .join _ _ _ _, _, ⟨hs, _⟩ => Bool.noConfusion hs
  | .clause _ _ _ _ _, _, ⟨hs, _⟩ => Bool.noConfusion hs
  | .leaf _, _, _ => trivial
  | .markup _ _, h, hs => Node.EachReversible.nothing h hs
  | .enumVariable _, h, _ => h.elim
  | .formula _, h, _ => h.elim
  | .contract _ _, h, _ => h.elim

theorem Node.EachReversible.nothing {schema : Schema} {identifier : String} {filled : List String} :
    ∀ {ns : List Node}, EachReversible schema identifier (.record filled) ns → EachScoped false ns →
      EachReversible schema identifier (.value []) ns
  | [], _, _ => trivial
  | _ :: _, ⟨hn, hrest⟩, ⟨hs, hsrest⟩ =>
    ⟨Node.Reversible.nothing hn hs, Node.EachReversible.nothing hrest hsrest⟩

end

end ClauseTemplates
