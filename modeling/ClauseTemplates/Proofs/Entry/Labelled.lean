import ClauseTemplates.Proofs.Entry.Record
import ClauseTemplates.Proofs.Grammar.Regions
import ClauseTemplates.Proofs.Template.Binds

namespace ClauseTemplates

/-- Nodes of a record template: every value stands behind a label, also where optional values in
front are absent. -/
inductive Node.Labelled : List Node → Prop
  | nil : Labelled []
  | text {label : String} (rest : List Node) : label ≠ "" →
      Labelled (.leaf (.text label) :: rest)
  | optional (name : String) (type : Option String) {whenSome rest : List Node} :
      Labelled whenSome → Labelled rest → Labelled (.optional name type whenSome [] :: rest)

namespace Fragment

open Node

theorem labelled_entry (lead : String) (p : Property) {rest : List Node} (h : Labelled rest) :
    Labelled (entry lead p ++ rest) := by
  have hlabel : lead ++ p.name ++ " " ≠ "" := by
    simp
  unfold entry
  split
  · exact .optional p.name none (.text _ hlabel) h
  · exact .text _ hlabel

theorem labelled_ofDeclaration (d : Declaration) : Labelled (ofDeclaration d) := by
  have hlater : ∀ ps : List Property,
      Labelled (ps.flatMap (entry Markup.defaultSeparator)) := by
    intro ps
    induction ps with
    | nil => exact .nil
    | cons p ps ih => exact labelled_entry Markup.defaultSeparator p ih
  unfold ofDeclaration
  split
  · exact .nil
  · exact labelled_entry "" _ (hlater _)

theorem joins_ofDeclaration {P : Region → Prop}
    (h : ∀ item, P ⟨Text.escaped Markup.defaultSeparator.toList, false, item⟩) (d : Declaration) :
    EveryAll (Joins P) (ofDeclaration d) := by
  have hvalue (p : Property) (name : String) : EveryAll (Joins P) (valueNodes p name) := by
    unfold valueNodes
    split
    · exact ⟨trivial, ⟨h, trivial, trivial⟩, trivial, trivial⟩
    · exact ⟨trivial, trivial⟩
  refine everyAll_iff.mpr (forall_ofDeclaration fun lead p _ => everyAll_iff.mp ?_)
  unfold entry
  split
  · exact ⟨⟨trivial, ⟨trivial, hvalue p thisName⟩, trivial⟩, trivial⟩
  · exact ⟨trivial, hvalue p p.name⟩

end Fragment

namespace Binding

open Node

variable {schema : Schema} {P : Region → Prop}

theorem labelled_bindsAll {ns : List Node} (h : Labelled ns) {scope : Option Target}
    {ms : List Node} (hbinds : BindsAll schema scope ns ms) : Labelled ms := by
  induction h generalizing scope ms with
  | nil =>
    cases hbinds
    exact .nil
  | text rest hlabel =>
    cases hbinds with
    | cons hm _ =>
      cases hm
      exact .text _ hlabel
  | optional name type _ _ ihSome ihRest =>
    cases hbinds with
    | cons hm hrest =>
      cases hm with
      | optional _ _ _ hsome hnone =>
        cases hnone
        exact .optional name _ (ihSome hsome) (ihRest hrest)

mutual

/-- Binding keeps the separators of joins. -/
theorem joins_binds : ∀ {scope : Option Target} {n m : Node}, Binds schema scope n m →
    n.Every (Joins P) → m.Every (Joins P)
  | _, _, _, .variable _ _ _ _ _, _ => trivial
  | _, _, _, .enumerated _ _ _, _ => trivial
  | _, _, _, .enumVariable _ _, _ => trivial
  | _, _, _, .formula _ _, _ => trivial
  | _, _, _, .flag _ _ _ ha hb, ⟨_, ht, hf⟩ =>
    ⟨trivial, joins_bindsAll ha ht, joins_bindsAll hb hf⟩
  | _, _, _, .condition _ _ ha hb, ⟨_, ht, hf⟩ =>
    ⟨trivial, joins_bindsAll ha ht, joins_bindsAll hb hf⟩
  | _, _, _, .optional _ _ _ ha hb, ⟨_, hs, hn⟩ =>
    ⟨trivial, joins_bindsAll ha hs, joins_bindsAll hb hn⟩
  | _, _, _, .within _ _ _ ha, ⟨_, hc⟩ => ⟨trivial, joins_bindsAll ha hc⟩
  | _, _, _, .list _ _ _ _ ha, ⟨_, hc⟩ => ⟨trivial, joins_bindsAll ha hc⟩
  | _, _, _, .join _ _ _ _ ha, ⟨hjoin, hc⟩ => ⟨hjoin, joins_bindsAll ha hc⟩
  | _, _, _, .clause _ _ _ _ _ ha, ⟨_, hc⟩ => ⟨trivial, joins_bindsAll ha hc⟩
  | _, _, _, .contract _ ha, ⟨_, hc⟩ => ⟨trivial, joins_bindsAll ha hc⟩
  | _, _, _, .leaf _ _, _ => trivial
  | _, _, _, .markup _ ha, ⟨_, hc⟩ => ⟨trivial, joins_bindsAll ha hc⟩

theorem joins_bindsAll : ∀ {scope : Option Target} {ns ms : List Node},
    BindsAll schema scope ns ms → EveryAll (Joins P) ns → EveryAll (Joins P) ms
  | _, _, _, .nil _, _ => trivial
  | _, _, _, .cons hm hrest, ⟨hn, hns⟩ => ⟨joins_binds hm hn, joins_bindsAll hrest hns⟩

end

end Binding

/-- In the template of a record, values stand behind labels, and the elements of arrays have
separators between them. -/
theorem Entry.compile_labelled {schema : Schema} {key : EntryKey} {type : String}
    {children : List Node} (h : Entry.compile schema key = .ok (.compound type children)) :
    Node.Labelled children ∧ Node.EveryAll (Node.Joins fun r => r.separator ≠ []) children := by
  obtain ⟨d, -, -, -, hbind⟩ := compile_compound h
  have hbinds := Binding.binds_bindRecord hbind
  have hseparator : Text.escaped Markup.defaultSeparator.toList ≠ [] := by decide
  exact ⟨Binding.labelled_bindsAll (Fragment.labelled_ofDeclaration d) hbinds,
    Binding.joins_bindsAll hbinds (Fragment.joins_ofDeclaration (fun _ => hseparator) d)⟩

end ClauseTemplates
