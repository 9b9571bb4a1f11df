import ClauseTemplates.Proofs.Template.Analyzes

namespace ClauseTemplates

inductive CalculationKind
  | formula
  /-- The condition of a conditional. -/
  | condition
  /-- The condition of a clause. -/
  | clause
  deriving DecidableEq

/-- Code that a template evaluates, and the name it goes by. -/
structure Calculation where
  kind : CalculationKind
  name : String
  code : String

namespace Node

mutual

/-- The calculations of a node and of what stands inside it, in the order of the document. -/
def calculations : Node → List Calculation
  | .formula f => [⟨.formula, f.name, f.code⟩]
  | .conditional name condition whenTrue whenFalse =>
    (condition.map fun code => ⟨.condition, name, code⟩).toList ++
      (calculationsAll whenTrue ++ calculationsAll whenFalse)
  | .optional _ _ whenSome whenNone => calculationsAll whenSome ++ calculationsAll whenNone
  | .within _ _ children => calculationsAll children
  | .list _ _ _ children => calculationsAll children
  | .join _ _ _ children => calculationsAll children
  | .clause name _ _ condition children =>
    (condition.map fun code => ⟨.clause, name, code⟩).toList ++ calculationsAll children
  | .contract _ children => calculationsAll children
  | .markup _ children => calculationsAll children
  | .variable _ => []
  | .enumVariable _ => []
  | .leaf _ => []

def calculationsAll : List Node → List Calculation
  | [] => []
  | node :: rest => calculations node ++ calculationsAll rest

end

theorem forall_calculationsAll {P : Calculation → Prop} {ns : List Node} :
    (∀ c ∈ calculationsAll ns, P c) ↔ ∀ n ∈ ns, ∀ c ∈ n.calculations, P c := by
  induction ns with
  | nil => simp [calculationsAll]
  | cons n rest ih => rw [calculationsAll, List.forall_mem_append, List.forall_mem_cons, ih]

end Node

namespace Calculation

/-- The names and codes of the calculations of a kind. -/
def named (kind : CalculationKind) (cs : List Calculation) : List (String × String) :=
  (cs.filter (·.kind == kind)).map fun c => (c.name, c.code)

variable {kind : CalculationKind}

theorem named_append (cs more : List Calculation) :
    named kind (cs ++ more) = named kind cs ++ named kind more := by
  rw [named, List.filter_append, List.map_append]
  rfl

theorem named_cons (c : Calculation) (cs : List Calculation) :
    named kind (c :: cs) = if c.kind = kind then (c.name, c.code) :: named kind cs else named kind cs := by
  by_cases h : c.kind = kind <;> simp [named, h]

end Calculation

namespace Formulas

open Node Calculation

theorem named_formula_toList {α : Type} (code? : Option α) (f : α → Calculation)
    (h : ∀ code, (f code).kind ≠ .formula) : named .formula (code?.map f).toList = [] := by
  cases code? with
  | none => rfl
  | some code =>
    rw [Option.map_some, Option.toList_some, named_cons, if_neg (h code)]
    rfl

mutual

theorem collect_calculations : ∀ n : Node,
    (collect n).map (fun f => (f.name, f.code)) = named .formula n.calculations
  | .formula _ => rfl
  | .conditional _ _ whenTrue whenFalse => by
    rw [collect, calculations, named_append, named_append, named_formula_toList _ _ nofun, List.map_append,
      collectAll_calculations whenTrue, collectAll_calculations whenFalse, List.nil_append]
  | .optional _ _ whenSome whenNone => by
    rw [collect, calculations, named_append, List.map_append, collectAll_calculations whenSome,
      collectAll_calculations whenNone]
  | .within _ _ children => collectAll_calculations children
  | .list _ _ _ children => collectAll_calculations children
  | .join _ _ _ children => collectAll_calculations children
  | .clause _ _ _ _ children => by
    rw [collect, calculations, named_append, named_formula_toList _ _ nofun, List.nil_append,
      collectAll_calculations children]
  | .contract _ children => collectAll_calculations children
  | .markup _ children => collectAll_calculations children
  | .variable _ => rfl
  | .enumVariable _ => rfl
  | .leaf _ => rfl

/-- The formulas that are collected are the calculations of their kind, in their order. -/
theorem collectAll_calculations : ∀ ns : List Node,
    (collectAll ns).map (fun f => (f.name, f.code)) = named .formula (calculationsAll ns)
  | [] => rfl
  | n :: rest => by
    rw [collectAll, calculationsAll, named_append, List.map_append, collect_calculations n,
      collectAll_calculations rest]

end

end Formulas

namespace Binding

open Node

variable {schema : Schema}

mutual

theorem calculations_binds : ∀ {scope : Option Target} {n m : Node}, Binds schema scope n m →
    m.calculations = n.calculations
  | _, _, _, .variable _ _ _ _ _ => rfl
  | _, _, _, .enumerated _ _ _ => rfl
  | _, _, _, .enumVariable _ _ => rfl
  | _, _, _, .formula _ _ => rfl
  | _, _, _, .flag _ _ _ ha hb => by
    rw [calculations, calculations, calculations_bindsAll ha, calculations_bindsAll hb]
  | _, _, _, .condition _ _ ha hb => by
    rw [calculations, calculations, calculations_bindsAll ha, calculations_bindsAll hb]
  | _, _, _, .optional _ _ _ ha hb => by
    rw [calculations, calculations, calculations_bindsAll ha, calculations_bindsAll hb]
  | _, _, _, .within _ _ _ ha => calculations_bindsAll ha
  | _, _, _, .list _ _ _ _ ha => calculations_bindsAll ha
  | _, _, _, .join _ _ _ _ ha => calculations_bindsAll ha
  | _, _, _, .clause _ _ _ _ _ ha => by
    rw [calculations, calculations, calculations_bindsAll ha]
  | _, _, _, .contract _ ha => calculations_bindsAll ha
  | _, _, _, .leaf _ _ => rfl
  | _, _, _, .markup _ ha => calculations_bindsAll ha

/-- Binding keeps the names and the code of all calculations. -/
theorem calculations_bindsAll : ∀ {scope : Option Target} {ns ms : List Node},
    BindsAll schema scope ns ms → calculationsAll ms = calculationsAll ns
  | _, _, _, .nil _ => rfl
  | _, _, _, .cons hm hrest => by
    rw [calculationsAll, calculationsAll, calculations_binds hm, calculations_bindsAll hrest]

end

end Binding

namespace Formulas

open Node

mutual

theorem calculations_analyzes : ∀ {n m : Node}, Analyzes n m → m.calculations = n.calculations
  | _, _, .variable _ => rfl
  | _, _, .enumVariable _ => rfl
  | _, _, .formula _ => rfl
  | _, _, .conditional _ _ ha hb => by
    rw [calculations, calculations, calculations_analyzesAll ha, calculations_analyzesAll hb]
  | _, _, .optional _ _ ha hb => by
    rw [calculations, calculations, calculations_analyzesAll ha, calculations_analyzesAll hb]
  | _, _, .within _ _ ha => calculations_analyzesAll ha
  | _, _, .list _ _ _ ha => calculations_analyzesAll ha
  | _, _, .join _ _ _ ha => calculations_analyzesAll ha
  | _, _, .clause _ _ _ _ ha => by
    rw [calculations, calculations, calculations_analyzesAll ha]
  | _, _, .contract _ ha => calculations_analyzesAll ha
  | _, _, .leaf _ => rfl
  | _, _, .markup _ ha => calculations_analyzesAll ha

/-- The analysis keeps the names and the code of all calculations. -/
theorem calculations_analyzesAll : ∀ {ns ms : List Node}, AnalyzesAll ns ms →
    calculationsAll ms = calculationsAll ns
  | _, _, .nil => rfl
  | _, _, .cons hm hrest => by
    rw [calculationsAll, calculationsAll, calculations_analyzes hm, calculations_analyzesAll hrest]

end

end Formulas

/-- A template has the calculations of the nodes it is made from. -/
theorem Template.calculations_ofNodes {schema : Schema} {kind : TemplateKind} {type : String}
    {nodes : List Node} {t : Template} (h : Template.ofNodes schema kind type nodes = .ok t) :
    Node.calculationsAll t.body = Node.calculationsAll nodes := by
  obtain ⟨_, _, _, hbind, hanalyzes⟩ := ofNodes_eq_ok h
  exact (Formulas.calculations_analyzesAll hanalyzes).trans
    (Binding.calculations_bindsAll (Binding.binds_bindRecord hbind))

end ClauseTemplates
