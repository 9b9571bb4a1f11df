import ClauseTemplates.Proofs.Drafting.Texts
import ClauseTemplates.Proofs.Template.Static

namespace ClauseTemplates

open Markdown

/-- A block of a clause template that is made of paragraphs of static text and nested clauses. -/
inductive Passage
  | paragraph (docs : List Doc) (static : Doc.StaticAll docs) (regionless : Doc.RegionlessAll docs)
  | clause (name type : String) (src condition : Option String) (children : List Passage)

namespace Passage

mutual

def node : Passage → Node
  | paragraph docs _ _ => .ofDoc (.node .paragraph docs)
  | clause name type src condition children =>
    .clause name (some type) src condition (nodes children)

def nodes : List Passage → List Node
  | [] => []
  | p :: rest => p.node :: nodes rest

end

mutual

/-- The texts of all paragraphs. -/
def lines (bullet : Char) : Passage → List (List Char)
  | paragraph docs _ _ => [rendered bullet [] (.node .paragraph docs)]
  | clause _ _ _ _ children => linesAll bullet children

def linesAll (bullet : Char) : List Passage → List (List Char)
  | [] => []
  | p :: rest => p.lines bullet ++ linesAll bullet rest

end

mutual

/-- Something of the block stands in every text. -/
def Solid : Passage → Prop
  | paragraph .. => True
  | clause _ _ _ condition children => condition = none ∧ SolidAny children

def SolidAny : List Passage → Prop
  | [] => False
  | p :: rest => p.Solid ∨ SolidAny rest

end

/-- Where the block is shown, something of it stands in the text. -/
def Filled : Passage → Prop
  | paragraph .. => True
  | clause _ _ _ _ children => SolidAny children

def Elidable (p : Passage) : Prop := Compiling.isElidable .clause p.node = true

mutual

/-- A clause that may be shown without a text may also be left out, in front of a block that stands in
every text. -/
def Tight : Passage → Prop
  | paragraph .. => True
  | clause _ _ _ _ children => TightAll children

def TightAll : List Passage → Prop
  | [] => True
  | p :: rest => p.Tight ∧ (p.Filled ∨ p.Elidable ∧ SolidAny rest) ∧ TightAll rest

end

def name? : Passage → Option String
  | paragraph .. => none
  | clause name _ _ _ _ => some name

mutual

/-- No two clauses of a scope are named for the same property, and none for the class. -/
def Apart : Passage → Prop
  | paragraph .. => True
  | clause _ _ _ _ children => (children.filterMap name?).Nodup ∧
    "$class" ∉ children.filterMap name? ∧ ApartAll children

def ApartAll : List Passage → Prop
  | [] => True
  | p :: rest => p.Apart ∧ ApartAll rest

end

mutual

theorem compiles (schema : Schema) : ∀ p : Passage, p.node.Compiles schema
  | paragraph docs _ _ => Node.compiles_ofDoc schema (.node .paragraph docs)
  | clause _ _ _ _ children => ⟨rfl, compilesAll schema children⟩

theorem compilesAll (schema : Schema) : ∀ ps : List Passage, Node.CompilesAll schema (nodes ps)
  | [] => trivial
  | p :: rest => ⟨compiles schema p, compilesAll schema rest⟩

end

theorem Solid.filled : ∀ {p : Passage}, p.Solid → p.Filled
  | paragraph .., _ => trivial
  | clause .., h => h.2

theorem Solid.not_elidable : ∀ {p : Passage}, p.Solid → Compiling.isElidable .clause p.node = false
  | paragraph .., _ => rfl
  | clause _ _ _ _ [], h => h.2.elim
  | clause _ _ _ _ (_ :: _), h => by
    obtain ⟨rfl, _⟩ := h
    rfl

end Passage

namespace Drafting

variable {schema : Schema} {context : DraftContext} {bullet : Char}
  {compound : List Char → List Node → Json → Option (List (List Char))}

mutual

theorem texts?_ofDoc (margin : List Char) (scope : Json) : ∀ doc : Doc,
    texts? schema bullet context compound margin (.ofDoc doc) scope = some [rendered bullet margin doc]
  | .leaf l => rfl
  | .node frame children => by
    rw [Node.ofDoc, texts?, textsAll?_ofDocs _ scope children, Option.map_some, rendered_node]

theorem textsAll?_ofDocs (margin : List Char) (scope : Json) : ∀ docs : List Doc,
    textsAll? schema bullet context compound margin (Node.ofDocs docs) scope =
      some (texts bullet margin docs)
  | [] => rfl
  | doc :: rest => by
    rw [Node.ofDocs, textsAll?, texts?_ofDoc margin scope doc, textsAll?_ofDocs margin scope rest]
    rfl

end

end Drafting

namespace Passage

open Drafting

variable {schema : Schema} {context : DraftContext} {bullet : Char}
  {compound : List Char → List Node → Json → Option (List (List Char))}

/-- What is drafted of a clause: its blocks where it is shown, nothing where it has a condition that does
not hold. -/
theorem texts_clause {name type : String} {src condition : Option String} {children : List Passage}
    (hkind : context.kind = .clause) {scope : Json} {ts : List (List Char)}
    (h : texts? schema bullet context compound [] (clause name type src condition children).node scope =
      some ts) :
    (condition.isSome = true ∧ ts = []) ∨
      ∃ value, textsAll? schema bullet context compound [] (nodes children) value = some ts := by
  rw [node, texts?] at h
  obtain ⟨value, _, h⟩ := Option.bind_eq_some_iff.mp h
  obtain ⟨shown, hshown, h⟩ := Option.bind_eq_some_iff.mp h
  cases shown with
  | false =>
    cases h
    cases condition with
    | none => cases hshown
    | some code => exact Or.inl ⟨rfl, rfl⟩
  | true =>
    rw [if_pos rfl, hkind] at h
    obtain ⟨ws, hws, rfl⟩ := Option.map_eq_some_iff.mp h
    exact Or.inr ⟨value, hws⟩

mutual

/-- What is drafted are lines of the template. -/
theorem texts_subset (hkind : context.kind = .clause) : ∀ (p : Passage) (scope : Json)
    (ts : List (List Char)), texts? schema bullet context compound [] p.node scope = some ts →
    ts ⊆ p.lines bullet
  | paragraph docs _ _, scope, ts, h => by
    rw [node, texts?_ofDoc] at h
    cases h
    exact List.Subset.refl _
  | clause name type src condition children, scope, ts, h => by
    rw [lines]
    rcases texts_clause hkind h with ⟨_, rfl⟩ | ⟨value, h⟩
    · exact List.nil_subset _
    · exact textsAll_subset hkind children value ts h

theorem textsAll_subset (hkind : context.kind = .clause) : ∀ (ps : List Passage) (scope : Json)
    (ts : List (List Char)), textsAll? schema bullet context compound [] (nodes ps) scope = some ts →
    ts ⊆ linesAll bullet ps
  | [], scope, ts, h => by
    cases h
    exact List.nil_subset _
  | p :: rest, scope, ts, h => by
    rw [nodes, textsAll?] at h
    obtain ⟨tp, htp, h⟩ := Option.bind_eq_some_iff.mp h
    obtain ⟨tm, htm, rfl⟩ := Option.map_eq_some_iff.mp h
    rw [linesAll]
    exact List.append_subset.mpr
      ⟨List.subset_append_of_subset_left _ (texts_subset hkind p scope tp htp),
        List.subset_append_of_subset_right _ (textsAll_subset hkind rest scope tm htm)⟩

end

mutual

theorem texts_of_solid (hkind : context.kind = .clause) : ∀ (p : Passage) (scope : Json)
    (ts : List (List Char)), p.Solid →
    texts? schema bullet context compound [] p.node scope = some ts → ts ≠ []
  | paragraph docs _ _, scope, ts, _, h => by
    rw [node, texts?_ofDoc] at h
    cases h
    simp
  | clause name type src condition children, scope, ts, ⟨hcondition, hsolid⟩, h => by
    rcases texts_clause hkind h with ⟨hsome, _⟩ | ⟨value, h⟩
    · rw [hcondition] at hsome
      cases hsome
    · exact textsAll_of_solid hkind children value ts hsolid h

theorem textsAll_of_solid (hkind : context.kind = .clause) : ∀ (ps : List Passage) (scope : Json)
    (ts : List (List Char)), SolidAny ps →
    textsAll? schema bullet context compound [] (nodes ps) scope = some ts → ts ≠ []
  | [], scope, ts, hsolid, h => hsolid.elim
  | p :: rest, scope, ts, hsolid, h => by
    rw [nodes, textsAll?] at h
    obtain ⟨tp, htp, h⟩ := Option.bind_eq_some_iff.mp h
    obtain ⟨tm, htm, rfl⟩ := Option.map_eq_some_iff.mp h
    rcases hsolid with hsolid | hsolid
    · simp [texts_of_solid hkind p scope tp hsolid htp]
    · simp [textsAll_of_solid hkind rest scope tm hsolid htm]

end

end Passage

end ClauseTemplates
