import ClauseTemplates.Proofs.Entry.Record
import ClauseTemplates.Proofs.Template.Every
import ClauseTemplates.Proofs.Template.Level

namespace ClauseTemplates

namespace Node

/-- The type that later stages read is filled in. A contract inside a template has no use for one. -/
def Typed : Node → Prop
  | .variable v => v.type.isSome = true
  | .optional _ type _ _ => type.isSome = true
  | .within _ type _ => type.isSome = true
  | .list _ _ type _ => type.isSome = true
  | .join _ type _ _ => type.isSome = true
  | .clause _ type _ _ _ => type.isSome = true
  | _ => True

/-- The code that drafting the node evaluates. -/
def code? : Node → Option String
  | .formula f => some f.code
  | .conditional _ condition _ _ => condition
  | .clause _ _ _ condition _ => condition
  | _ => none

/-- All code of the node is of a kind. -/
def Coded (codes : String → Prop) (n : Node) : Prop := ∀ code, n.code? = some code → codes code

theorem coded_of_none {codes : String → Prop} {n : Node} (h : n.code? = none) : n.Coded codes := by
  intro code hcode
  rw [h] at hcode
  cases hcode

end Node

/-- The code of an expression. -/
def Expression.Readable (code : String) : Prop := ∃ e, Expression.read code = .ok e

namespace Binding

variable {schema : Schema} {codes : String → Prop}

mutual

/-- Binding fills in all types and keeps the code. -/
theorem typed_binds : ∀ {scope : Option Target} {n m : Node}, Binds schema scope n m →
    n.Every (Node.Coded codes) → m.Every fun n => n.Typed ∧ n.Coded codes
  | _, _, _, .variable _ _ _ _ _, _ => ⟨rfl, Node.coded_of_none rfl⟩
  | _, _, _, .enumerated _ _ _, _ => ⟨trivial, Node.coded_of_none rfl⟩
  | _, _, _, .enumVariable _ _, _ => ⟨trivial, Node.coded_of_none rfl⟩
  | _, _, _, .formula _ _, hc => ⟨trivial, hc⟩
  | _, _, _, .flag _ _ _ ha hb, ⟨hc, ht, hf⟩ =>
    ⟨⟨trivial, hc⟩, typed_bindsAll ha ht, typed_bindsAll hb hf⟩
  | _, _, _, .condition _ _ ha hb, ⟨hc, ht, hf⟩ =>
    ⟨⟨trivial, hc⟩, typed_bindsAll ha ht, typed_bindsAll hb hf⟩
  | _, _, _, .optional _ _ _ ha hb, ⟨_, hs, hn⟩ =>
    ⟨⟨rfl, Node.coded_of_none rfl⟩, typed_bindsAll ha hs, typed_bindsAll hb hn⟩
  | _, _, _, .within _ _ _ ha, ⟨_, hc⟩ => ⟨⟨rfl, Node.coded_of_none rfl⟩, typed_bindsAll ha hc⟩
  | _, _, _, .list _ _ _ _ ha, ⟨_, hc⟩ => ⟨⟨rfl, Node.coded_of_none rfl⟩, typed_bindsAll ha hc⟩
  | _, _, _, .join _ _ _ _ ha, ⟨_, hc⟩ => ⟨⟨rfl, Node.coded_of_none rfl⟩, typed_bindsAll ha hc⟩
  | _, _, _, .clause _ _ _ _ _ ha, ⟨hcode, hc⟩ => ⟨⟨rfl, hcode⟩, typed_bindsAll ha hc⟩
  | _, _, _, .contract _ ha, ⟨_, hc⟩ => ⟨⟨trivial, Node.coded_of_none rfl⟩, typed_bindsAll ha hc⟩
  | _, _, _, .leaf _ _, _ => ⟨trivial, Node.coded_of_none rfl⟩
  | _, _, _, .markup _ ha, ⟨_, hc⟩ => ⟨⟨trivial, Node.coded_of_none rfl⟩, typed_bindsAll ha hc⟩

theorem typed_bindsAll : ∀ {scope : Option Target} {ns ms : List Node},
    BindsAll schema scope ns ms → Node.EveryAll (Node.Coded codes) ns →
      Node.EveryAll (fun n => n.Typed ∧ n.Coded codes) ms
  | _, _, _, .nil _, _ => trivial
  | _, _, _, .cons hm hrest, ⟨hn, hns⟩ => ⟨typed_binds hm hn, typed_bindsAll hrest hns⟩

end

theorem typed_bindRecord {type : String} {ns ms : List Node}
    (h : bindRecord schema type ns = .ok ms) (hns : Node.EveryAll (Node.Coded codes) ns) :
    Node.EveryAll (fun n => n.Typed ∧ n.Coded codes) ms :=
  typed_bindsAll (binds_bindRecord h) hns

end Binding

namespace Formulas

mutual

/-- The analysis reads all code and keeps the types. -/
theorem typed_analyzes : ∀ {n m : Node}, Analyzes n m → n.Every Node.Typed →
    m.Every fun n => n.Typed ∧ n.Coded Expression.Readable
  | _, _, .variable _, ht => ⟨ht, Node.coded_of_none rfl⟩
  | _, _, .enumVariable _, _ => ⟨trivial, Node.coded_of_none rfl⟩
  | _, _, .formula (e := e) hread, _ => by
    refine ⟨trivial, ?_⟩
    rintro _ ⟨⟩
    exact ⟨e, hread⟩
  | _, _, .conditional _ hread ha hb, ⟨_, ht, hf⟩ =>
    ⟨⟨trivial, hread⟩, typed_analyzesAll ha ht, typed_analyzesAll hb hf⟩
  | _, _, .optional _ _ ha hb, ⟨htype, hs, hn⟩ =>
    ⟨⟨htype, Node.coded_of_none rfl⟩, typed_analyzesAll ha hs, typed_analyzesAll hb hn⟩
  | _, _, .within _ _ ha, ⟨htype, hc⟩ => ⟨⟨htype, Node.coded_of_none rfl⟩, typed_analyzesAll ha hc⟩
  | _, _, .list _ _ _ ha, ⟨htype, hc⟩ => ⟨⟨htype, Node.coded_of_none rfl⟩, typed_analyzesAll ha hc⟩
  | _, _, .join _ _ _ ha, ⟨htype, hc⟩ => ⟨⟨htype, Node.coded_of_none rfl⟩, typed_analyzesAll ha hc⟩
  | _, _, .clause _ _ _ hread ha, ⟨htype, hc⟩ => ⟨⟨htype, hread⟩, typed_analyzesAll ha hc⟩
  | _, _, .contract _ ha, ⟨_, hc⟩ => ⟨⟨trivial, Node.coded_of_none rfl⟩, typed_analyzesAll ha hc⟩
  | _, _, .leaf _, _ => ⟨trivial, Node.coded_of_none rfl⟩
  | _, _, .markup _ ha, ⟨_, hc⟩ => ⟨⟨trivial, Node.coded_of_none rfl⟩, typed_analyzesAll ha hc⟩

theorem typed_analyzesAll : ∀ {ns ms : List Node}, AnalyzesAll ns ms → Node.EveryAll Node.Typed ns →
    Node.EveryAll (fun n => n.Typed ∧ n.Coded Expression.Readable) ms
  | _, _, .nil, _ => trivial
  | _, _, .cons hm hrest, ⟨hn, hns⟩ => ⟨typed_analyzes hm hn, typed_analyzesAll hrest hns⟩

end

end Formulas

namespace Fragment

/-- The template of a record evaluates nothing. -/
theorem coded_ofDeclaration (codes : String → Prop) (d : Declaration) :
    Node.EveryAll (Node.Coded codes) (ofDeclaration d) := by
  have hvalue (p : Property) (name : String) :
      Node.EveryAll (Node.Coded codes) (valueNodes p name) := by
    unfold valueNodes
    split <;> simp [Node.EveryAll, Node.Every, Node.Coded, Node.code?, Node.text]
  refine Node.everyAll_iff.mpr (forall_ofDeclaration fun lead p _ => Node.everyAll_iff.mp ?_)
  unfold entry
  split
  · exact ⟨⟨Node.coded_of_none rfl, ⟨Node.coded_of_none rfl, hvalue p thisName⟩, trivial⟩, trivial⟩
  · exact ⟨Node.coded_of_none rfl, hvalue p p.name⟩

end Fragment

/-- The types of a template that could be made are filled in, and its code can be read. -/
theorem Template.ofNodes_typed {schema : Schema} {kind : TemplateKind} {type : String}
    {nodes : List Node} {t : Template} (h : Template.ofNodes schema kind type nodes = .ok t) :
    Node.EveryAll (fun n => n.Typed ∧ n.Coded Expression.Readable) t.body := by
  obtain ⟨_, _, bound, hbind, hanalyzes⟩ := ofNodes_eq_ok h
  have htyped : Node.EveryAll (fun n => n.Typed ∧ n.Coded fun _ => True) bound :=
    Binding.typed_bindRecord hbind (Node.everyAll_of_forall (fun _ _ _ => trivial) nodes)
  exact Formulas.typed_analyzesAll hanalyzes (Node.EveryAll.mono (fun _ hn => hn.1) bound htyped)

/-- So are those of the templates of records. -/
theorem Entry.compile_typed {schema : Schema} {key : EntryKey} {type : String}
    {children : List Node} (h : Entry.compile schema key = .ok (.compound type children)) :
    Node.EveryAll (fun n => n.Typed ∧ n.Coded Expression.Readable) children := by
  obtain ⟨d, _, _, _, hbind⟩ := compile_compound h
  exact Binding.typed_bindRecord hbind (Fragment.coded_ofDeclaration _ d)

end ClauseTemplates
