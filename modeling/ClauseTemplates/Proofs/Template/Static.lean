import ClauseTemplates.Proofs.Grammar.Compiles
import ClauseTemplates.Template

namespace ClauseTemplates

mutual

/-- A document as a part of a template. -/
def Node.ofDoc : Doc → Node
  | .leaf l => .leaf l
  | .node frame children => .markup frame (Node.ofDocs children)

def Node.ofDocs : List Doc → List Node
  | [] => []
  | doc :: rest => Node.ofDoc doc :: Node.ofDocs rest

end

def Leaf.isFormula : Leaf → Bool
  | .formula _ _ => true
  | _ => false

def Frame.isRegion : Frame → Bool
  | .clause _ _ _ => true
  | _ => false

mutual

/-- No result of a formula stands in the document. -/
def Doc.Static : Doc → Prop
  | .leaf l => l.isFormula = false
  | .node _ children => Doc.StaticAll children

def Doc.StaticAll : List Doc → Prop
  | [] => True
  | doc :: rest => doc.Static ∧ Doc.StaticAll rest

end

mutual

/-- No clause region stands in the document. -/
def Doc.Regionless : Doc → Prop
  | .leaf _ => True
  | .node frame children => frame.isRegion = false ∧ Doc.RegionlessAll children

def Doc.RegionlessAll : List Doc → Prop
  | [] => True
  | doc :: rest => doc.Regionless ∧ Doc.RegionlessAll rest

end

namespace Binding

mutual

theorem bindNode_ofDoc (schema : Schema) (scope : Option Target) :
    ∀ doc : Doc, bindNode schema scope (.ofDoc doc) = .ok (.ofDoc doc)
  | .leaf l => rfl
  | .node frame children => by
    rw [Node.ofDoc, bindNode, bindNodes_ofDocs schema scope children]
    rfl

theorem bindNodes_ofDocs (schema : Schema) (scope : Option Target) :
    ∀ docs : List Doc, bindNodes schema scope (Node.ofDocs docs) = .ok (Node.ofDocs docs)
  | [] => rfl
  | doc :: rest => by
    rw [Node.ofDocs, bindNodes, bindNode_ofDoc schema scope doc, bindNodes_ofDocs schema scope rest]
    rfl

end

end Binding

namespace Formulas

mutual

theorem analyze_ofDoc : ∀ doc : Doc, analyze (.ofDoc doc) = .ok (.ofDoc doc)
  | .leaf l => rfl
  | .node frame children => by
    rw [Node.ofDoc, analyze, analyzeAll_ofDocs children]
    rfl

theorem analyzeAll_ofDocs : ∀ docs : List Doc, analyzeAll (Node.ofDocs docs) = .ok (Node.ofDocs docs)
  | [] => rfl
  | doc :: rest => by
    rw [Node.ofDocs, analyzeAll, analyze_ofDoc doc, analyzeAll_ofDocs rest]
    rfl

end

end Formulas

/-- A document is a template for the records of every type. -/
theorem Template.ofNodes_ofDocs {schema : Schema} {type : String} (kind : TemplateKind)
    (docs : List Doc) (htype : schema.isRecord type = true) :
    Template.ofNodes schema kind type (Node.ofDocs docs) = .ok ⟨kind, type, Node.ofDocs docs⟩ := by
  unfold Template.ofNodes Binding.bindRecord
  rw [if_pos htype, Binding.bindNodes_ofDocs]
  change ((Formulas.analyzeAll (Node.ofDocs docs)).mapError Error.expression >>= _) = _
  rw [Formulas.analyzeAll_ofDocs]
  rfl

namespace Drafting

variable (context : DraftContext) (compound : String → List Node → Json → Drafting (List Doc))

mutual

theorem node_ofDoc (scope : Json) : ∀ doc : Doc, node context compound (.ofDoc doc) scope = pure [doc]
  | .leaf l => by rw [Node.ofDoc, node]
  | .node frame children => by
    rw [Node.ofDoc, node, nodes_ofDocs scope children, pure_bind]

theorem nodes_ofDocs (scope : Json) :
    ∀ docs : List Doc, nodes context compound (Node.ofDocs docs) scope = pure docs
  | [] => by rw [Node.ofDocs, nodes]
  | doc :: rest => by
    rw [Node.ofDocs, nodes, node_ofDoc scope doc, pure_bind, nodes_ofDocs scope rest, pure_bind]
    rfl

end

end Drafting

/-- Drafting a document gives the document itself, whatever the data. -/
theorem Template.draft_ofDocs (kind : TemplateKind) (type : String) (docs : List Doc) {data : Json}
    (hdata : data.isObject = true) (now : Instant) (s : DraftState) :
    ∃ record s', ((⟨kind, type, Node.ofDocs docs⟩ : Template).draft data now).run s =
      (.ok (.node (.document (some record)) docs), s') := by
  cases data with
  | obj fields =>
    unfold Template.draft
    simp only [Json.isObject, Bool.not_true, Bool.false_eq_true, if_false, Drafting.nodes_ofDocs]
    exact ⟨_, _, rfl⟩
  | _ => cases hdata

mutual

theorem Node.compiles_ofDoc (schema : Schema) : ∀ doc : Doc, (Node.ofDoc doc).Compiles schema
  | .leaf _ => trivial
  | .node _ children => Node.compiles_ofDocs schema children

theorem Node.compiles_ofDocs (schema : Schema) :
    ∀ docs : List Doc, Node.CompilesAll schema (Node.ofDocs docs)
  | [] => trivial
  | doc :: rest => ⟨Node.compiles_ofDoc schema doc, Node.compiles_ofDocs schema rest⟩

end

end ClauseTemplates
