import ClauseTemplates.Proofs.Entry.Record
import ClauseTemplates.Proofs.Grammar.Compiled
import ClauseTemplates.Proofs.Template.Every
import ClauseTemplates.Proofs.Template.Typed

namespace ClauseTemplates

/-- Nodes that the templates of records are made of. Their texts do not depend on where they
stand. -/
def Node.Flat : Node → Prop
  | .variable _ => True
  | .enumVariable _ => True
  | .optional _ _ _ _ => True
  | .join _ _ _ _ => True
  | .leaf (.text _) => True
  | _ => False

theorem Fragment.flat_ofDeclaration (d : Declaration) : Node.EveryAll Node.Flat (ofDeclaration d) := by
  have hvalue (p : Property) (name : String) : Node.EveryAll Node.Flat (valueNodes p name) := by
    unfold valueNodes
    split <;> simp [Node.EveryAll, Node.Every, Node.Flat, Node.text]
  refine Node.everyAll_iff.mpr (forall_ofDeclaration fun lead p _ => Node.everyAll_iff.mp ?_)
  unfold entry
  split
  · exact ⟨⟨trivial, ⟨trivial, hvalue p thisName⟩, trivial⟩, trivial⟩
  · exact ⟨trivial, hvalue p p.name⟩

namespace Binding

variable {schema : Schema}

mutual

theorem flat_binds : ∀ {scope : Option Target} {n m : Node}, Binds schema scope n m →
    n.Every Node.Flat → m.Every fun n => n.Flat ∧ n.Typed
  | _, _, _, .variable _ _ _ _ _, _ => ⟨trivial, rfl⟩
  | _, _, _, .enumerated _ _ _, _ => ⟨trivial, trivial⟩
  | _, _, _, .enumVariable _ _, _ => ⟨trivial, trivial⟩
  | _, _, _, .optional _ _ _ ha hb, ⟨_, hs, hn⟩ =>
    ⟨⟨trivial, rfl⟩, flat_bindsAll ha hs, flat_bindsAll hb hn⟩
  | _, _, _, .join _ _ _ _ ha, ⟨_, hc⟩ => ⟨⟨trivial, rfl⟩, flat_bindsAll ha hc⟩
  | _, _, _, .leaf _ _, h => ⟨h, trivial⟩
  | _, _, _, .formula _ _, h => h.elim
  | _, _, _, .flag _ _ _ _ _, h => h.1.elim
  | _, _, _, .condition _ _ _ _, h => h.1.elim
  | _, _, _, .within _ _ _ _, h => h.1.elim
  | _, _, _, .list _ _ _ _ _, h => h.1.elim
  | _, _, _, .clause _ _ _ _ _ _, h => h.1.elim
  | _, _, _, .contract _ _, h => h.1.elim
  | _, _, _, .markup _ _, h => h.1.elim

theorem flat_bindsAll : ∀ {scope : Option Target} {ns ms : List Node},
    BindsAll schema scope ns ms → Node.EveryAll Node.Flat ns →
      Node.EveryAll (fun n => n.Flat ∧ n.Typed) ms
  | _, _, _, .nil _, _ => trivial
  | _, _, _, .cons hm hrest, ⟨hn, hns⟩ => ⟨flat_binds hm hn, flat_bindsAll hrest hns⟩

end

end Binding

theorem Entry.compile_flat {schema : Schema} {key : EntryKey} {type : String} {children : List Node}
    (h : Entry.compile schema key = .ok (.compound type children)) :
    Node.EveryAll (fun n => n.Flat ∧ n.Typed) children := by
  obtain ⟨d, -, -, -, hbind⟩ := compile_compound h
  exact Binding.flat_bindsAll (Binding.binds_bindRecord hbind) (Fragment.flat_ofDeclaration d)

namespace Grammar

variable (schema : Schema) (kind : TemplateKind) (settings : Settings)

mutual

/-- The texts of flat nodes are the same at every margin. -/
theorem ofNode_flat (margin margin' : List Char) : ∀ n : Node, n.Every Node.Flat →
    ofNode schema kind settings margin n = ofNode schema kind settings margin' n
  | .variable v, _ => by rw [ofNode, ofNode]
  | .enumVariable v, _ => by rw [ofNode, ofNode]
  | .optional name type whenSome whenNone, ⟨_, hs, hn⟩ => by
    rw [ofNode, ofNode, ofInlines_flat margin margin' whenSome hs,
      ofInlines_flat margin margin' whenNone hn]
  | .join name type separator children, ⟨_, hc⟩ => by
    rw [ofNode, ofNode, ofInlines_flat margin margin' children hc]
  | .leaf (.text s), _ => by rw [ofNode, ofNode]; rfl
  | .formula _, h => h.elim
  | .conditional _ _ _ _, h => h.1.elim
  | .within _ _ _, h => h.1.elim
  | .list _ _ _ _, h => h.1.elim
  | .clause _ _ _ _ _, h => h.1.elim
  | .contract _ _, h => h.1.elim
  | .markup _ _, h => h.1.elim

theorem ofInlines_flat (margin margin' : List Char) : ∀ ns : List Node, Node.EveryAll Node.Flat ns →
    ofInlines schema kind settings margin ns = ofInlines schema kind settings margin' ns
  | [], _ => by rw [ofInlines, ofInlines]
  | n :: rest, ⟨hn, hrest⟩ => by
    rw [ofInlines, ofInlines, ofNode_flat margin margin' n hn,
      ofInlines_flat margin margin' rest hrest]

end

end Grammar

end ClauseTemplates
