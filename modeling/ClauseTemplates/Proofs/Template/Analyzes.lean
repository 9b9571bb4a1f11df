import ClauseTemplates.Proofs.Template.Binds

namespace ClauseTemplates

namespace Formulas

mutual

/-- What the analysis makes of a node, case by case. All code that drafting evaluates is read. -/
inductive Analyzes : Node → Node → Prop
  | variable (v : Variable) : Analyzes (.variable v) (.variable v)
  | enumVariable (v : EnumVariable) : Analyzes (.enumVariable v) (.enumVariable v)
  | formula {f : Formula} {e : Expression} (hread : Expression.read f.code = .ok e) :
      Analyzes (.formula f) (.formula { f with dependencies := e.freeIdentifiers })
  | conditional (name : String) {condition : Option String}
      {whenTrue whenFalse whenTrue' whenFalse' : List Node}
      (hread : ∀ code, condition = some code → ∃ e, Expression.read code = .ok e)
      (htrue : AnalyzesAll whenTrue whenTrue') (hfalse : AnalyzesAll whenFalse whenFalse') :
      Analyzes (.conditional name condition whenTrue whenFalse)
        (.conditional name condition whenTrue' whenFalse')
  | optional (name : String) (type : Option String)
      {whenSome whenNone whenSome' whenNone' : List Node}
      (hsome : AnalyzesAll whenSome whenSome') (hnone : AnalyzesAll whenNone whenNone') :
      Analyzes (.optional name type whenSome whenNone) (.optional name type whenSome' whenNone')
  | within (name : String) (type : Option String) {children children' : List Node}
      (hinside : AnalyzesAll children children') :
      Analyzes (.within name type children) (.within name type children')
  | list (name : String) (kind : ListKind) (type : Option String) {children children' : List Node}
      (hinside : AnalyzesAll children children') :
      Analyzes (.list name kind type children) (.list name kind type children')
  | join (name : String) (type : Option String) (separator : String) {children children' : List Node}
      (hinside : AnalyzesAll children children') :
      Analyzes (.join name type separator children) (.join name type separator children')
  | clause (name : String) (type src : Option String) {condition : Option String}
      {children children' : List Node}
      (hread : ∀ code, condition = some code → ∃ e, Expression.read code = .ok e)
      (hinside : AnalyzesAll children children') :
      Analyzes (.clause name type src condition children) (.clause name type src condition children')
  | contract (type : Option String) {children children' : List Node}
      (hinside : AnalyzesAll children children') :
      Analyzes (.contract type children) (.contract type children')
  | leaf (l : Leaf) : Analyzes (.leaf l) (.leaf l)
  | markup (frame : Frame) {children children' : List Node}
      (hinside : AnalyzesAll children children') :
      Analyzes (.markup frame children) (.markup frame children')

inductive AnalyzesAll : List Node → List Node → Prop
  | nil : AnalyzesAll [] []
  | cons {n m : Node} {rest rest' : List Node} (hfirst : Analyzes n m)
      (hrest : AnalyzesAll rest rest') : AnalyzesAll (n :: rest) (m :: rest')

end

theorem exists_read_of_checkCode {condition : Option String} {u : Unit} (h : checkCode condition = .ok u) :
    ∀ code, condition = some code → ∃ e, Expression.read code = .ok e := by
  rintro code rfl
  obtain ⟨e, he, _⟩ := bind_eq_ok.mp h
  exact ⟨e, he⟩

mutual

theorem analyzes_analyze : ∀ (n : Node) {m : Node}, analyze n = .ok m → Analyzes n m
  | .variable v, m, h => by
    rw [analyze] at h
    cases h
    exact .variable v
  | .enumVariable v, m, h => by
    rw [analyze] at h
    cases h
    exact .enumVariable v
  | .formula f, m, h => by
    rw [analyze] at h
    obtain ⟨e, hread, h⟩ := bind_eq_ok.mp h
    cases h
    exact .formula hread
  | .conditional name condition whenTrue whenFalse, m, h => by
    rw [analyze] at h
    obtain ⟨_, hcheck, h⟩ := bind_eq_ok.mp h
    obtain ⟨a, ha, h⟩ := bind_eq_ok.mp h
    obtain ⟨b, hb, h⟩ := bind_eq_ok.mp h
    cases h
    exact .conditional name (exists_read_of_checkCode hcheck) (analyzesAll_analyzeAll whenTrue ha)
      (analyzesAll_analyzeAll whenFalse hb)
  | .optional name type whenSome whenNone, m, h => by
    rw [analyze] at h
    obtain ⟨a, ha, h⟩ := bind_eq_ok.mp h
    obtain ⟨b, hb, h⟩ := bind_eq_ok.mp h
    cases h
    exact .optional name type (analyzesAll_analyzeAll whenSome ha) (analyzesAll_analyzeAll whenNone hb)
  | .within name type children, m, h => by
    rw [analyze] at h
    obtain ⟨a, ha, h⟩ := bind_eq_ok.mp h
    cases h
    exact .within name type (analyzesAll_analyzeAll children ha)
  | .list name kind type children, m, h => by
    rw [analyze] at h
    obtain ⟨a, ha, h⟩ := bind_eq_ok.mp h
    cases h
    exact .list name kind type (analyzesAll_analyzeAll children ha)
  | .join name type separator children, m, h => by
    rw [analyze] at h
    obtain ⟨a, ha, h⟩ := bind_eq_ok.mp h
    cases h
    exact .join name type separator (analyzesAll_analyzeAll children ha)
  | .clause name type src condition children, m, h => by
    rw [analyze] at h
    obtain ⟨_, hcheck, h⟩ := bind_eq_ok.mp h
    obtain ⟨a, ha, h⟩ := bind_eq_ok.mp h
    cases h
    exact .clause name type src (exists_read_of_checkCode hcheck) (analyzesAll_analyzeAll children ha)
  | .contract type children, m, h => by
    rw [analyze] at h
    obtain ⟨a, ha, h⟩ := bind_eq_ok.mp h
    cases h
    exact .contract type (analyzesAll_analyzeAll children ha)
  | .leaf l, m, h => by
    rw [analyze] at h
    cases h
    exact .leaf l
  | .markup frame children, m, h => by
    rw [analyze] at h
    obtain ⟨a, ha, h⟩ := bind_eq_ok.mp h
    cases h
    exact .markup frame (analyzesAll_analyzeAll children ha)

theorem analyzesAll_analyzeAll : ∀ (ns : List Node) {ms : List Node}, analyzeAll ns = .ok ms →
    AnalyzesAll ns ms
  | [], ms, h => by
    rw [analyzeAll] at h
    cases h
    exact .nil
  | n :: rest, ms, h => by
    rw [analyzeAll] at h
    obtain ⟨a, ha, h⟩ := bind_eq_ok.mp h
    obtain ⟨b, hb, h⟩ := bind_eq_ok.mp h
    cases h
    exact .cons (analyzes_analyze n ha) (analyzesAll_analyzeAll rest hb)

end

end Formulas

/-- A template is bound to its type before its formulas are analyzed. -/
theorem Template.ofNodes_eq_ok {schema : Schema} {kind : TemplateKind} {type : String}
    {nodes : List Node} {t : Template} (h : Template.ofNodes schema kind type nodes = .ok t) :
    t.kind = kind ∧ t.type = type ∧ ∃ bound, Binding.bindRecord schema type nodes = .ok bound ∧
      Formulas.AnalyzesAll bound t.body := by
  obtain ⟨bound, hbound, h⟩ := bind_eq_ok.mp h
  obtain ⟨body, hbody, h⟩ := bind_eq_ok.mp h
  cases h
  exact ⟨rfl, rfl, bound, mapError_eq_ok.mp hbound,
    Formulas.analyzesAll_analyzeAll bound (mapError_eq_ok.mp hbody)⟩

end ClauseTemplates
