import ClauseTemplates.Proofs.Effects
import ClauseTemplates.Template

namespace ClauseTemplates.Binding

variable {schema : Schema} {scope : Option Target} {name : String} {t : Target}

theorem resolve_property {s : Target} (h : resolve schema (some s) name = .ok t)
    (hname : name ≠ thisName) : s.array = false ∧ ∃ d p, schema.find? s.type = some d ∧
      d.property? name = some p ∧ t = Target.ofProperty schema p := by
  unfold resolve at h
  dsimp only at h
  rw [if_neg hname] at h
  split at h
  · cases h
  · rename_i harray
    split at h
    · rename_i p hp
      obtain ⟨d, hd, hp⟩ := Option.bind_eq_some_iff.mp hp
      cases h
      exact ⟨Bool.eq_false_iff.mpr harray, d, p, hd, hp, rfl⟩
    · cases h

theorem resolve_of_array (h : resolveArray schema scope name = .ok t) :
    resolve schema scope name = .ok t ∧ t.array = true := by
  obtain ⟨target, htarget, h⟩ := bind_eq_ok.mp h
  dsimp only at h
  split at h
  · cases h
  · rename_i harray
    obtain ⟨_, _, h⟩ := bind_eq_ok.mp h
    cases h
    exact ⟨htarget, by simpa using harray⟩

theorem resolve_of_single (h : resolveSingle schema scope name = .ok t) :
    resolve schema scope name = .ok t ∧ t.array = false := by
  obtain ⟨target, htarget, h⟩ := bind_eq_ok.mp h
  dsimp only at h
  split at h
  · cases h
  · rename_i harray
    obtain ⟨_, _, h⟩ := bind_eq_ok.mp h
    cases h
    exact ⟨htarget, by simpa using harray⟩

theorem resolve_of_optional (h : resolveOptional schema scope name = .ok t) :
    resolve schema scope name = .ok t ∧ t.optional = true := by
  obtain ⟨target, htarget, h⟩ := bind_eq_ok.mp h
  dsimp only at h
  split at h
  · cases h
  · rename_i hoptional
    cases h
    exact ⟨htarget, by simpa using hoptional⟩

theorem resolve_of_boolean {u : Unit} (h : checkBoolean schema scope name = .ok u) :
    ∃ t, resolve schema scope name = .ok t ∧ t.array = false ∧ t.type = "Boolean" := by
  obtain ⟨target, htarget, h⟩ := bind_eq_ok.mp h
  split at h
  · cases h
  · rename_i hboolean
    exact ⟨target, htarget, by simpa using hboolean⟩

mutual

/-- What binding makes of a node in a scope, case by case. -/
inductive Binds (schema : Schema) : Option Target → Node → Node → Prop
  | variable {scope : Option Target} {v : Variable} {t : Target} (format identifiedBy : Option String) :
      resolve schema scope v.name = .ok t → t.array = false → identifiedBy.isSome = t.relationship →
      Binds schema scope (.variable v)
        (.variable ⟨v.name, some t.type, format, identifiedBy, t.decorators⟩)
  | enumerated {scope : Option Target} {v : Variable} {t : Target} (values : List String) :
      resolve schema scope v.name = .ok t → t.array = false →
      Binds schema scope (.variable v) (.enumVariable ⟨v.name, t.type, values, t.decorators⟩)
  | enumVariable (scope : Option Target) (v : EnumVariable) :
      Binds schema scope (.enumVariable v) (.enumVariable v)
  | formula (scope : Option Target) (f : Formula) : Binds schema scope (.formula f) (.formula f)
  | flag {scope : Option Target} {name : String} {t : Target}
      {whenTrue whenFalse whenTrue' whenFalse' : List Node} :
      resolve schema scope name = .ok t → t.array = false → t.type = "Boolean" →
      BindsAll schema scope whenTrue whenTrue' → BindsAll schema none whenFalse whenFalse' →
      Binds schema scope (.conditional name none whenTrue whenFalse)
        (.conditional name none whenTrue' whenFalse')
  | condition {scope : Option Target} (name code : String)
      {whenTrue whenFalse whenTrue' whenFalse' : List Node} :
      BindsAll schema scope whenTrue whenTrue' → BindsAll schema none whenFalse whenFalse' →
      Binds schema scope (.conditional name (some code) whenTrue whenFalse)
        (.conditional name (some code) whenTrue' whenFalse')
  | optional {scope : Option Target} {name : String} (type : Option String) {t : Target}
      {whenSome whenNone whenSome' whenNone' : List Node} :
      resolve schema scope name = .ok t → t.optional = true →
      BindsAll schema (some { t with optional := false }) whenSome whenSome' →
      BindsAll schema none whenNone whenNone' →
      Binds schema scope (.optional name type whenSome whenNone)
        (.optional name (some t.type) whenSome' whenNone')
  | within {scope : Option Target} {name : String} (type : Option String) {t : Target}
      {children children' : List Node} :
      resolve schema scope name = .ok t → t.array = false →
      BindsAll schema (some t.element) children children' →
      Binds schema scope (.within name type children) (.within name (some t.type) children')
  | list {scope : Option Target} {name : String} (kind : ListKind) (type : Option String) {t : Target}
      {children children' : List Node} :
      resolve schema scope name = .ok t → t.array = true →
      BindsAll schema (some t.element) children children' →
      Binds schema scope (.list name kind type children) (.list name kind (some t.type) children')
  | join {scope : Option Target} {name : String} (type : Option String) (separator : String)
      {t : Target} {children children' : List Node} :
      resolve schema scope name = .ok t → t.array = true →
      BindsAll schema (some t.element) children children' →
      Binds schema scope (.join name type separator children)
        (.join name (some t.type) separator children')
  | clause {scope : Option Target} {name : String} (type src condition : Option String) {t : Target}
      {children children' : List Node} :
      resolve schema scope name = .ok t → t.array = false →
      BindsAll schema (some t.element) children children' →
      Binds schema scope (.clause name type src condition children)
        (.clause name (some t.type) src condition children')
  | contract {scope : Option Target} (type : Option String) {children children' : List Node} :
      BindsAll schema scope children children' →
      Binds schema scope (.contract type children) (.contract (scope.map (·.type)) children')
  | leaf (scope : Option Target) (l : Leaf) : Binds schema scope (.leaf l) (.leaf l)
  | markup {scope : Option Target} (frame : Frame) {children children' : List Node} :
      BindsAll schema scope children children' →
      Binds schema scope (.markup frame children) (.markup frame children')

inductive BindsAll (schema : Schema) : Option Target → List Node → List Node → Prop
  | nil (scope : Option Target) : BindsAll schema scope [] []
  | cons {scope : Option Target} {n m : Node} {rest rest' : List Node} : Binds schema scope n m →
      BindsAll schema scope rest rest' → BindsAll schema scope (n :: rest) (m :: rest')

end

theorem binds_bindVariable {v : Variable} {m : Node} (h : bindVariable schema scope v = .ok m) :
    Binds schema scope (.variable v) m := by
  obtain ⟨target, htarget, h⟩ := bind_eq_ok.mp h
  dsimp only at h
  split at h
  · cases h
  · rename_i harray
    have harray : target.array = false := by simpa using harray
    split at h
    · cases h
      exact .enumerated _ htarget harray
    · obtain ⟨_, _, h⟩ := bind_eq_ok.mp h
      cases h
      refine .variable _ _ htarget harray ?_
      cases target.relationship <;> rfl

theorem branches {x y : Result (List Node)} {f : List Node → List Node → Node} {m : Node}
    (h : (do let a ← x; pure (f a (← y))) = Except.ok m) :
    ∃ a b, x = .ok a ∧ y = .ok b ∧ f a b = m := by
  obtain ⟨a, ha, h⟩ := bind_eq_ok.mp h
  obtain ⟨b, hb, h⟩ := bind_eq_ok.mp h
  cases h
  exact ⟨a, b, ha, hb, rfl⟩

mutual

theorem binds_bindNode : ∀ {scope : Option Target} (n : Node) {m : Node},
    bindNode schema scope n = .ok m → Binds schema scope n m
  | scope, .variable v, m, h => by
    rw [bindNode] at h
    exact binds_bindVariable h
  | scope, .enumVariable v, m, h => by
    rw [bindNode] at h
    cases h
    exact .enumVariable scope v
  | scope, .formula f, m, h => by
    rw [bindNode] at h
    cases h
    exact .formula scope f
  | scope, .conditional name none whenTrue whenFalse, m, h => by
    rw [bindNode] at h
    obtain ⟨_, hcheck, h⟩ := bind_eq_ok.mp h
    obtain ⟨a, b, ha, hb, rfl⟩ := branches h
    obtain ⟨t, ht, harray, htype⟩ := resolve_of_boolean hcheck
    exact .flag ht harray htype (binds_bindNodes whenTrue ha) (binds_bindNodes whenFalse hb)
  | scope, .conditional name (some code) whenTrue whenFalse, m, h => by
    rw [bindNode] at h
    obtain ⟨a, b, ha, hb, rfl⟩ := branches h
    exact .condition name code (binds_bindNodes whenTrue ha) (binds_bindNodes whenFalse hb)
  | scope, .optional name type whenSome whenNone, m, h => by
    rw [bindNode] at h
    obtain ⟨t, ht, h⟩ := bind_eq_ok.mp h
    obtain ⟨a, b, ha, hb, rfl⟩ := branches h
    obtain ⟨ht, hoptional⟩ := resolve_of_optional ht
    exact .optional type ht hoptional (binds_bindNodes whenSome ha) (binds_bindNodes whenNone hb)
  | scope, .within name type children, m, h => by
    rw [bindNode] at h
    obtain ⟨t, ht, h⟩ := bind_eq_ok.mp h
    obtain ⟨a, ha, h⟩ := bind_eq_ok.mp h
    cases h
    obtain ⟨ht, harray⟩ := resolve_of_single ht
    exact .within type ht harray (binds_bindNodes children ha)
  | scope, .list name kind type children, m, h => by
    rw [bindNode] at h
    obtain ⟨t, ht, h⟩ := bind_eq_ok.mp h
    obtain ⟨a, ha, h⟩ := bind_eq_ok.mp h
    cases h
    obtain ⟨ht, harray⟩ := resolve_of_array ht
    exact .list kind type ht harray (binds_bindNodes children ha)
  | scope, .join name type separator children, m, h => by
    rw [bindNode] at h
    obtain ⟨t, ht, h⟩ := bind_eq_ok.mp h
    obtain ⟨a, ha, h⟩ := bind_eq_ok.mp h
    cases h
    obtain ⟨ht, harray⟩ := resolve_of_array ht
    exact .join type separator ht harray (binds_bindNodes children ha)
  | scope, .clause name type src condition children, m, h => by
    rw [bindNode] at h
    obtain ⟨t, ht, h⟩ := bind_eq_ok.mp h
    obtain ⟨a, ha, h⟩ := bind_eq_ok.mp h
    cases h
    obtain ⟨ht, harray⟩ := resolve_of_single ht
    exact .clause type src condition ht harray (binds_bindNodes children ha)
  | scope, .contract type children, m, h => by
    rw [bindNode] at h
    obtain ⟨a, ha, h⟩ := bind_eq_ok.mp h
    cases h
    exact .contract type (binds_bindNodes children ha)
  | scope, .leaf l, m, h => by
    rw [bindNode] at h
    cases h
    exact .leaf scope l
  | scope, .markup frame children, m, h => by
    rw [bindNode] at h
    obtain ⟨a, ha, h⟩ := bind_eq_ok.mp h
    cases h
    exact .markup frame (binds_bindNodes children ha)

theorem binds_bindNodes : ∀ {scope : Option Target} (ns : List Node) {ms : List Node},
    bindNodes schema scope ns = .ok ms → BindsAll schema scope ns ms
  | scope, [], ms, h => by
    rw [bindNodes] at h
    cases h
    exact .nil scope
  | scope, n :: rest, ms, h => by
    rw [bindNodes] at h
    obtain ⟨a, ha, h⟩ := bind_eq_ok.mp h
    obtain ⟨b, hb, h⟩ := bind_eq_ok.mp h
    cases h
    exact .cons (binds_bindNode n ha) (binds_bindNodes rest hb)

end

theorem binds_bindRecord {type : String} {ns ms : List Node} (h : bindRecord schema type ns = .ok ms) :
    BindsAll schema (some (Target.ofType schema type)) ns ms := by
  unfold bindRecord at h
  split at h
  · exact binds_bindNodes ns h
  · cases h

/-- The type of what a name stands for is filled in. -/
theorem bindVariable_plain (hresolve : resolve schema scope name = .ok t) (harray : t.array = false)
    (hvalue : t.relationship = false) (hformat : Decorator.format? t.decorators = none)
    (henum : schema.isEnum t.type = false) (hknown : schema.knows t.type = true) :
    bindVariable schema scope (.unbound name none) =
      .ok (.variable ⟨name, some t.type, none, none, t.decorators⟩) := by
  have hfilter : (schema.find? t.type).filter Declaration.isEnum = none := by
    unfold Schema.isEnum at henum
    cases hf : schema.find? t.type with
    | none => rfl
    | some d =>
      rw [hf, Option.any_some] at henum
      rw [Option.filter_some, henum]
      rfl
  have hcheck : checkType schema t.type = .ok () := if_pos hknown
  unfold bindVariable
  simp [Variable.unbound, hresolve, harray, hfilter, hcheck, hvalue, hformat, bind, Except.bind]

theorem bindNodes_append {ns ms as bs : List Node} (h : bindNodes schema scope ns = .ok as)
    (h' : bindNodes schema scope ms = .ok bs) : bindNodes schema scope (ns ++ ms) = .ok (as ++ bs) := by
  induction ns generalizing as with
  | nil =>
    rw [bindNodes] at h
    cases h
    exact h'
  | cons n ns ih =>
    rw [bindNodes] at h
    obtain ⟨m, hm, h⟩ := bind_eq_ok.mp h
    obtain ⟨rest, hrest, h⟩ := bind_eq_ok.mp h
    cases h
    rw [List.cons_append, bindNodes]
    exact bind_eq_ok.mpr ⟨m, hm, bind_eq_ok.mpr ⟨_, ih hrest, rfl⟩⟩

theorem bindNodes_flatMap {f g : α → List Node} {as : List α}
    (h : ∀ a ∈ as, bindNodes schema scope (f a) = .ok (g a)) :
    bindNodes schema scope (as.flatMap f) = .ok (as.flatMap g) := by
  induction as with
  | nil =>
    rw [List.flatMap_nil, bindNodes]
    rfl
  | cons a as ih =>
    obtain ⟨ha, has⟩ := List.forall_mem_cons.mp h
    exact bindNodes_append ha (ih has)

end ClauseTemplates.Binding
