import ClauseTemplates.Proofs.Template.Analyzes
import ClauseTemplates.Proofs.Template.Equality
import ClauseTemplates.Template

namespace ClauseTemplates

/-- Two scopes with the same values for some names. -/
def Scope.Agree (names : List String) (s s' : Scope) : Prop :=
  ∀ name ∈ names, s.lookup name = s'.lookup name

theorem Scope.Agree.mono {names fewer : List String} {s s' : Scope} (h : Agree names s s')
    (hfewer : fewer ⊆ names) : Agree fewer s s' :=
  fun name hname => h name (hfewer hname)

theorem Scope.agree_append {names more : List String} {s s' : Scope} :
    Agree (names ++ more) s s' ↔ Agree names s s' ∧ Agree more s s' := by
  simp [Agree, or_imp, forall_and]

namespace Expression

section

variable {s s' : Scope}

mutual

/-- The value of an expression depends on the names it reads alone. Names that are not reached
because of a short circuit may be read in vain, but no other names are. -/
theorem evaluate_congr : ∀ e : Expression, Scope.Agree e.names s s' → e.evaluate s = e.evaluate s'
  | .literal _, _ => by rw [evaluate, evaluate]
  | .ident name, h => by
    rw [names] at h
    rw [evaluate, evaluate, h name (List.mem_singleton_self name)]
  | .member target _, h => by
    rw [names] at h
    rw [evaluate, evaluate, evaluate_congr target h]
  | .index target key, h => by
    rw [names, Scope.agree_append] at h
    rw [evaluate, evaluate, evaluate_congr target h.1, evaluate_congr key h.2]
  | .neg operand, h => by
    rw [names] at h
    rw [evaluate, evaluate, evaluate_congr operand h]
  | .not operand, h => by
    rw [names] at h
    rw [evaluate, evaluate, evaluate_congr operand h]
  | .binary _ lhs rhs, h => by
    rw [names, Scope.agree_append] at h
    rw [evaluate, evaluate, evaluate_congr lhs h.1, evaluate_congr rhs h.2]
  | .cond condition whenTrue whenFalse, h => by
    rw [names, Scope.agree_append, Scope.agree_append] at h
    obtain ⟨⟨hc, ht⟩, hf⟩ := h
    rw [evaluate, evaluate, evaluate_congr condition hc, evaluate_congr whenTrue ht,
      evaluate_congr whenFalse hf]
  | .call _ arguments, h => by
    rw [names] at h
    rw [evaluate, evaluate, evaluateAll_congr arguments h]
  | .array items, h => by
    rw [names] at h
    rw [evaluate, evaluate, evaluateAll_congr items h]

theorem evaluateAll_congr : ∀ es : List Expression, Scope.Agree (namesOfAll es) s s' →
    evaluateAll s es = evaluateAll s' es
  | [], _ => by rw [evaluateAll, evaluateAll]
  | e :: rest, h => by
    rw [namesOfAll, Scope.agree_append] at h
    rw [evaluateAll, evaluateAll, evaluate_congr e h.1, evaluateAll_congr rest h.2]

end

end

theorem mem_insertName {name n : String} {sorted : List String} :
    n ∈ insertName name sorted ↔ n = name ∨ n ∈ sorted := by
  induction sorted with
  | nil => simp [insertName]
  | cons m rest ih =>
    unfold insertName
    split
    · rename_i heq
      simp [heq]
    · split
      · simp
      · simp only [List.mem_cons, ih]
        exact or_left_comm

/-- Sorting leaves out no name and adds none. -/
theorem mem_freeIdentifiers {e : Expression} {name : String} :
    name ∈ e.freeIdentifiers ↔ name ∈ e.names := by
  have hfold : ∀ (ns sorted : List String),
      name ∈ ns.foldl (fun sorted n => insertName n sorted) sorted ↔ name ∈ ns ∨ name ∈ sorted := by
    intro ns
    induction ns with
    | nil => simp
    | cons n ns ih =>
      intro sorted
      rw [List.foldl_cons, ih, mem_insertName, List.mem_cons, or_assoc]
      exact or_left_comm
  rw [freeIdentifiers, hfold]
  simp

theorem evaluate_of_freeIdentifiers {e : Expression} {s s' : Scope}
    (h : Scope.Agree e.freeIdentifiers s s') : e.evaluate s = e.evaluate s' :=
  evaluate_congr e fun name hname => h name (mem_freeIdentifiers.mpr hname)

end Expression

/-- The names that are recorded are those of the code. -/
def Formula.Recorded (f : Formula) : Prop :=
  ∃ e, Expression.read f.code = .ok e ∧ f.dependencies = e.freeIdentifiers

namespace Formulas

mutual

theorem recorded_analyzes : ∀ {n m : Node}, Analyzes n m → ∀ f ∈ collect m, f.Recorded
  | _, _, .variable _ => by simp [collect]
  | _, _, .enumVariable _ => by simp [collect]
  | _, _, .leaf _ => by simp [collect]
  | _, _, .formula (e := e) hread => by
    intro g hg
    rw [collect] at hg
    obtain rfl := List.mem_singleton.mp hg
    exact ⟨e, hread, rfl⟩
  | _, _, .conditional _ _ ha hb => by
    rw [collect]
    exact List.forall_mem_append.mpr ⟨recorded_analyzesAll ha, recorded_analyzesAll hb⟩
  | _, _, .optional _ _ ha hb => by
    rw [collect]
    exact List.forall_mem_append.mpr ⟨recorded_analyzesAll ha, recorded_analyzesAll hb⟩
  | _, _, .within _ _ ha => recorded_analyzesAll ha
  | _, _, .list _ _ _ ha => recorded_analyzesAll ha
  | _, _, .join _ _ _ ha => recorded_analyzesAll ha
  | _, _, .clause _ _ _ _ ha => recorded_analyzesAll ha
  | _, _, .contract _ ha => recorded_analyzesAll ha
  | _, _, .markup _ ha => recorded_analyzesAll ha

/-- The analysis reaches every formula, in whatever blocks it stands. -/
theorem recorded_analyzesAll : ∀ {ns ms : List Node}, AnalyzesAll ns ms → ∀ f ∈ collectAll ms, f.Recorded
  | _, _, .nil => by simp [collectAll]
  | _, _, .cons hm hrest => by
    rw [collectAll]
    exact List.forall_mem_append.mpr ⟨recorded_analyzes hm, recorded_analyzesAll hrest⟩

end

end Formulas

theorem Template.formulas_recorded {schema : Schema} {kind : TemplateKind} {type : String}
    {nodes : List Node} {t : Template} (h : Template.ofNodes schema kind type nodes = .ok t) :
    ∀ f ∈ t.formulas, f.Recorded := by
  obtain ⟨_, _, _, _, hanalyzes⟩ := ofNodes_eq_ok h
  exact Formulas.recorded_analyzesAll hanalyzes

/-- Formulas are drafted alike from data that agree on the names recorded for them. -/
theorem Drafting.node_formula_congr {f : Formula} (hf : f.Recorded) {context context' : DraftContext}
    (h : Scope.Agree f.dependencies (.ofData context.data context.now)
      (.ofData context'.data context'.now))
    (compound compound' : String → List Node → Json → Drafting (List Doc)) (scope scope' : Json) :
    node context compound (.formula f) scope = node context' compound' (.formula f) scope' := by
  obtain ⟨e, he, hdeps⟩ := hf
  rw [hdeps] at h
  have hvalue := Expression.evaluate_of_freeIdentifiers h
  rw [node, node, evaluate, evaluate, he]
  dsimp only
  rw [hvalue]

/-- The recorded dependencies of formulas are sound: neither the value of an expression nor what is
drafted for a formula changes as long as the names it reads stand for the same, the time among them. -/
theorem Template.dependencies_sound :
    (∀ (e : Expression) (s s' : Scope), Scope.Agree e.freeIdentifiers s s' →
      e.evaluate s = e.evaluate s') ∧
    ∀ (schema : Schema) (kind : TemplateKind) (type : String) (nodes : List Node) (t : Template),
      Template.ofNodes schema kind type nodes = .ok t → ∀ f ∈ t.formulas,
        ∀ context context' : DraftContext,
          Scope.Agree f.dependencies (.ofData context.data context.now)
            (.ofData context'.data context'.now) →
          ∀ compound compound' scope scope',
            Drafting.node context compound (.formula f) scope =
              Drafting.node context' compound' (.formula f) scope' := by
  refine ⟨fun e s s' h => Expression.evaluate_of_freeIdentifiers h, ?_⟩
  intro schema kind type nodes t ht f hf context context' h compound compound' scope scope'
  exact Drafting.node_formula_congr (formulas_recorded ht f hf) h compound compound' scope scope'

namespace Priced

def schema : Schema :=
  ⟨[.concept "Offer" [.plain "price" "Integer", .plain "note" "String"]]⟩

def nodes : List Node :=
  [.markup .paragraph [.conditional "cheap" (some "price < 10")
    [.formula ⟨"total", "price > 0 || now ? price * 2 : 0", []⟩] []]]

def formula : Formula := ⟨"total", "price > 0 || now ? price * 2 : 0", ["now", "price"]⟩

def template : Template :=
  ⟨.clause, "Offer", [.markup .paragraph [.conditional "cheap" (some "price < 10") [.formula formula] []]]⟩

/-- An offer with some note. -/
def context (note : String) : DraftContext :=
  ⟨.obj [("price", .int 3), ("note", .str note)], ⟨0, 0, 0⟩, .clause⟩

def scope (note : String) : Scope := .ofData (context note).data (context note).now

theorem ofNodes_eq : Template.ofNodes schema .clause "Offer" nodes = .ok template :=
  Template.eq_ok_of_equal (by decide +kernel)

theorem agree : Scope.Agree formula.dependencies (scope "a") (scope "b") := by
  simp [Scope.Agree, formula, scope, context, Scope.ofData, Scope.lookup, Json.Fields.get?]

theorem dependencies_sound_priced :
    Template.ofNodes schema .clause "Offer" nodes = .ok template ∧ formula ∈ template.formulas ∧
      (∃ e, Expression.read formula.code = .ok e ∧ e.evaluate (scope "a") = e.evaluate (scope "b")) ∧
      ∀ compound, Drafting.node (context "a") compound (.formula formula) .null =
        Drafting.node (context "b") compound (.formula formula) .null := by
  obtain ⟨hvalue, hdraft⟩ := Template.dependencies_sound
  have hmem : formula ∈ template.formulas := List.mem_singleton_self formula
  obtain ⟨e, he, hdeps⟩ := Template.formulas_recorded ofNodes_eq formula hmem
  have hagree := agree
  refine ⟨ofNodes_eq, hmem, ⟨e, he, ?_⟩, fun compound => ?_⟩
  · rw [hdeps] at hagree
    exact hvalue e _ _ hagree
  · exact hdraft schema .clause "Offer" nodes template ofNodes_eq formula hmem (context "a")
      (context "b") agree compound compound .null .null

end Priced

end ClauseTemplates
