import ClauseTemplates.Proofs.Template.Level

namespace ClauseTemplates

mutual

/-- Names are looked up only where there is a scope, as there is none in a branch for an absent
value; only what an expression decides needs no name. -/
def Node.Scoped : Bool → Node → Prop
  | named, .variable _ => named = true
  | _, .enumVariable _ => True
  | _, .formula _ => True
  | named, .conditional _ condition whenTrue whenFalse =>
    (condition = none → named = true) ∧ Node.EachScoped named whenTrue ∧
      Node.EachScoped false whenFalse
  | named, .optional _ _ whenSome whenNone =>
    named = true ∧ Node.EachScoped true whenSome ∧ Node.EachScoped false whenNone
  | named, .within _ _ children => named = true ∧ Node.EachScoped true children
  | named, .list _ _ _ children => named = true ∧ Node.EachScoped true children
  | named, .join _ _ _ children => named = true ∧ Node.EachScoped true children
  | named, .clause _ _ _ _ children => named = true ∧ Node.EachScoped true children
  | named, .contract _ children => Node.EachScoped named children
  | _, .leaf _ => True
  | named, .markup _ children => Node.EachScoped named children

def Node.EachScoped : Bool → List Node → Prop
  | _, [] => True
  | named, n :: rest => n.Scoped named ∧ Node.EachScoped named rest

end

namespace Binding

variable {schema : Schema}

theorem isSome_of_resolve {scope : Option Target} {name : String} {target : Target}
    (h : resolve schema scope name = .ok target) : scope.isSome = true := by
  cases scope with
  | none => cases h
  | some _ => rfl

mutual

theorem scoped_binds : ∀ {scope : Option Target} {n m : Node}, Binds schema scope n m →
    m.Scoped scope.isSome
  | _, _, _, .variable _ _ ht _ _ => isSome_of_resolve ht
  | _, _, _, .enumerated _ _ _ => trivial
  | _, _, _, .enumVariable _ _ => trivial
  | _, _, _, .formula _ _ => trivial
  | _, _, _, .flag ht _ _ ha hb =>
    ⟨fun _ => isSome_of_resolve ht, eachScoped_bindsAll ha, eachScoped_bindsAll hb⟩
  | _, _, _, .condition _ _ ha hb => ⟨nofun, eachScoped_bindsAll ha, eachScoped_bindsAll hb⟩
  | _, _, _, .optional _ ht _ ha hb =>
    ⟨isSome_of_resolve ht, eachScoped_bindsAll ha, eachScoped_bindsAll hb⟩
  | _, _, _, .within _ ht _ ha => ⟨isSome_of_resolve ht, eachScoped_bindsAll ha⟩
  | _, _, _, .list _ _ ht _ ha => ⟨isSome_of_resolve ht, eachScoped_bindsAll ha⟩
  | _, _, _, .join _ _ ht _ ha => ⟨isSome_of_resolve ht, eachScoped_bindsAll ha⟩
  | _, _, _, .clause _ _ _ ht _ ha => ⟨isSome_of_resolve ht, eachScoped_bindsAll ha⟩
  | _, _, _, .contract _ ha => eachScoped_bindsAll ha
  | _, _, _, .leaf _ _ => trivial
  | _, _, _, .markup _ ha => eachScoped_bindsAll ha

theorem eachScoped_bindsAll : ∀ {scope : Option Target} {ns ms : List Node},
    BindsAll schema scope ns ms → Node.EachScoped scope.isSome ms
  | _, _, _, .nil _ => trivial
  | _, _, _, .cons hm hrest => ⟨scoped_binds hm, eachScoped_bindsAll hrest⟩

end

end Binding

namespace Formulas

mutual

theorem scoped_analyzes {named : Bool} : ∀ {n m : Node}, Analyzes n m → n.Scoped named → m.Scoped named
  | _, _, .variable _, h => h
  | _, _, .enumVariable _, h => h
  | _, _, .formula _, _ => trivial
  | _, _, .conditional _ _ ha hb, ⟨hs, ht, hf⟩ =>
    ⟨hs, eachScoped_analyzesAll ha ht, eachScoped_analyzesAll hb hf⟩
  | _, _, .optional _ _ ha hb, ⟨hs, ht, hn⟩ =>
    ⟨hs, eachScoped_analyzesAll ha ht, eachScoped_analyzesAll hb hn⟩
  | _, _, .within _ _ ha, ⟨hs, hc⟩ => ⟨hs, eachScoped_analyzesAll ha hc⟩
  | _, _, .list _ _ _ ha, ⟨hs, hc⟩ => ⟨hs, eachScoped_analyzesAll ha hc⟩
  | _, _, .join _ _ _ ha, ⟨hs, hc⟩ => ⟨hs, eachScoped_analyzesAll ha hc⟩
  | _, _, .clause _ _ _ _ ha, ⟨hs, hc⟩ => ⟨hs, eachScoped_analyzesAll ha hc⟩
  | _, _, .contract _ ha, hc => eachScoped_analyzesAll ha hc
  | _, _, .leaf _, _ => trivial
  | _, _, .markup _ ha, hc => eachScoped_analyzesAll ha hc

theorem eachScoped_analyzesAll {named : Bool} : ∀ {ns ms : List Node}, AnalyzesAll ns ms →
    Node.EachScoped named ns → Node.EachScoped named ms
  | _, _, .nil, _ => trivial
  | _, _, .cons hm hrest, ⟨hn, hns⟩ => ⟨scoped_analyzes hm hn, eachScoped_analyzesAll hrest hns⟩

end

end Formulas

theorem Template.ofNodes_scoped {schema : Schema} {kind : TemplateKind} {type : String}
    {nodes : List Node} {t : Template} (h : Template.ofNodes schema kind type nodes = .ok t) :
    Node.EachScoped true t.body := by
  obtain ⟨_, _, bound, hbind, hanalyzes⟩ := ofNodes_eq_ok h
  exact Formulas.eachScoped_analyzesAll hanalyzes
    (Binding.eachScoped_bindsAll (Binding.binds_bindRecord hbind))

theorem Template.ofMarkup_scoped {schema : Schema} {kind : TemplateKind} {type markup : String}
    {t : Template} (h : Template.ofMarkup schema kind type markup = .ok t) :
    Node.EachScoped true t.body := by
  obtain ⟨nodes, _, h⟩ := bind_eq_ok.mp h
  exact ofNodes_scoped h

end ClauseTemplates
