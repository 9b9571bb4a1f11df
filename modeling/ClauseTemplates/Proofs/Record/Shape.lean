import ClauseTemplates.Proofs.Conforming.Sound
import ClauseTemplates.Proofs.Template.Binds
import ClauseTemplates.Proofs.Template.Flat

namespace ClauseTemplates

open Binding

/-- The types of values that are shown by a text program of their own, as far as every value is read
back from what it writes. -/
def scalarTypes : List String := ["String", "Boolean", "Integer", "Long", "DateTime"]

theorem ScalarType.ofName?_scalarType {type : String} (h : type ∈ scalarTypes) :
    (ofName? type).isSome = true := by
  simp only [scalarTypes, List.mem_cons, List.not_mem_nil, or_false] at h
  rcases h with rfl | rfl | rfl | rfl | rfl <;> rfl

/-- A property without a format that holds values of a scalar type, or records of one of some types. -/
structure Schema.Simple (schema : Schema) (types : String → Prop) (p : Property) : Prop where
  value : p.relationship = false
  unformatted : Decorator.format? (Target.ofProperty schema p).decorators = none
  type : types p.type ∨ p.type ∈ scalarTypes ∧ schema.isEnum p.type = false

/-- A record type with simple properties, which have names of their own. -/
structure Schema.Composed (schema : Schema) (types : String → Prop) (type : String) (d : Declaration) :
    Prop where
  declared : schema.find? type = some d
  record : d.isEnum = false
  compound : ScalarType.ofName? type = none
  distinct : (d.properties.map (·.name)).Nodup
  named : ∀ p ∈ d.properties, p.name ≠ thisName ∧ p.isSystem = false
  simple : ∀ p ∈ d.properties, schema.Simple types p

/-- The records of these types show no others. They may show each other, and themselves. -/
def Schema.Composite (schema : Schema) (types : String → Prop) : Prop :=
  ∀ type, types type → ∃ d, schema.Composed types type d

/-- The properties that the template of a record shows, each with the text in front of its name. -/
def Declaration.entries (d : Declaration) : List (String × Property) :=
  match d.properties.filter fun p => !p.isSystem with
  | [] => []
  | first :: rest => ("", first) :: rest.map fun p => (Markup.defaultSeparator, p)

namespace Fragment

theorem ofDeclaration_eq (d : Declaration) :
    ofDeclaration d = d.entries.flatMap fun e => entry e.1 e.2 := by
  unfold ofDeclaration Declaration.entries
  cases d.properties.filter fun p => !p.isSystem with
  | nil => rfl
  | cons first rest => rw [List.flatMap_cons, List.flatMap_map]

theorem mem_properties {d : Declaration} {e : String × Property} (h : e ∈ d.entries) :
    e.2 ∈ d.properties := by
  unfold Declaration.entries at h
  split at h
  · cases h
  · rename_i first rest hshown
    have hmem (p : Property) (hp : p ∈ first :: rest) : p ∈ d.properties :=
      (List.mem_filter.mp (hshown ▸ hp)).1
    rcases List.mem_cons.mp h with rfl | h
    · exact hmem first List.mem_cons_self
    · obtain ⟨p, hp, rfl⟩ := List.mem_map.mp h
      exact hmem p (List.mem_cons_of_mem _ hp)

/-- Where the system writes no property, all of them are shown. -/
theorem map_entries {d : Declaration} (h : ∀ p ∈ d.properties, p.isSystem = false) :
    d.entries.map (·.2) = d.properties := by
  have hall : d.properties.filter (fun p => !p.isSystem) = d.properties :=
    List.filter_eq_self.mpr fun p hp => by rw [h p hp]; rfl
  unfold Declaration.entries
  rw [hall]
  cases d.properties with
  | nil => rfl
  | cons first rest => simp

/-- A value of a type, or the elements of an array in brackets, with the types filled in. -/
def boundValue (type : String) (array : Bool) (decorators : List Decorator) (name : String) :
    List Node :=
  let shown (name : String) : Node := .variable ⟨name, some type, none, none, decorators⟩
  if array then
    [.text "[", .join name (some type) Markup.defaultSeparator [shown thisName], .text "]"]
  else [shown name]

variable (schema : Schema)

/-- The name of a property and its value, with the types filled in. -/
def boundEntry (e : String × Property) : List Node :=
  let label := Node.text (e.1 ++ e.2.name ++ " ")
  let value := boundValue e.2.type e.2.array (Target.ofProperty schema e.2).decorators
  if e.2.optional then [.optional e.2.name (some e.2.type) (label :: value thisName) []]
  else label :: value e.2.name

def boundEntries (es : List (String × Property)) : List Node := es.flatMap (boundEntry schema)

end Fragment

namespace Binding

open Fragment

variable {schema : Schema} {scope : Option Target} {name : String} {t : Target} {p : Property}
  {types : String → Prop}

/-- The type of a simple property is known, and has no values to list. -/
theorem knows_simple (hc : schema.Composite types) (hp : schema.Simple types p) :
    schema.isEnum p.type = false ∧ schema.knows p.type = true := by
  rcases hp.type with htype | ⟨htype, henum⟩
  · obtain ⟨d, hd⟩ := hc p.type htype
    exact ⟨by simp [Schema.isEnum, hd.declared, hd.record], by simp [Schema.knows, hd.declared]⟩
  · have hprimitive : isPrimitive p.type = true := by
      unfold scalarTypes at htype
      unfold isPrimitive primitiveTypes
      simp only [List.mem_cons, List.not_mem_nil, or_false] at htype
      rcases htype with h | h | h | h | h <;> simp [h]
    exact ⟨henum, by simp [Schema.knows, hprimitive]⟩

/-- A value is bound to what its name stands for. -/
theorem bindNodes_valueNodes (hresolve : resolve schema scope name = .ok t) (harray : t.array = p.array)
    (hvalue : t.relationship = false) (hformat : Decorator.format? t.decorators = none)
    (henum : schema.isEnum t.type = false) (hknown : schema.knows t.type = true) :
    bindNodes schema scope (valueNodes p name) =
      .ok (boundValue t.type p.array t.decorators name) := by
  unfold valueNodes boundValue
  cases hmany : p.array with
  | false =>
    have hvariable := bindVariable_plain hresolve (harray.trans hmany) hvalue hformat henum hknown
    simp [bindNodes, bindNode, hvariable, bind, Except.bind, pure, Except.pure]
  | true =>
    have hthis : resolve schema (some t.element) thisName = .ok t.element := by
      simp [resolve]
    have hvariable := bindVariable_plain hthis rfl hvalue hformat henum hknown
    have hlist : resolveArray schema scope name = .ok t := by
      have hcheck : checkType schema t.type = .ok () := if_pos hknown
      simp [resolveArray, hresolve, harray, hmany, hcheck, bind, Except.bind, pure, Except.pure]
    have helement : t.element.type = t.type ∧ t.element.decorators = t.decorators := ⟨rfl, rfl⟩
    rw [helement.1, helement.2] at hvariable
    simp [bindNodes, bindNode, Node.text, hlist, hvariable, bind, Except.bind, pure, Except.pure]

/-- The template of a record is bound name by name. -/
theorem bindRecord_composed (hc : schema.Composite types) {type : String} {d : Declaration}
    (hd : schema.Composed types type d) :
    bindRecord schema type (ofDeclaration d) = .ok (boundEntries schema d.entries) := by
  have hrecord : schema.isRecord type = true := by
    simp [Schema.isRecord, hd.declared, hd.record]
  rw [bindRecord, if_pos hrecord, ofDeclaration_eq]
  refine bindNodes_flatMap fun e he => ?_
  obtain ⟨lead, p⟩ := e
  have hp : p ∈ d.properties := mem_properties he
  obtain ⟨hthis, -⟩ := hd.named p hp
  have hresolve : resolve schema (some (Target.ofType schema type)) p.name =
      .ok (Target.ofProperty schema p) := by
    have hfound : d.property? p.name = some p := find?_property hd.distinct hp
    simp [resolve, hthis, Target.ofType, hd.declared, hfound]
  have hsimple := hd.simple p hp
  obtain ⟨henum, hknown⟩ := knows_simple hc hsimple
  have hlabel (scope : Option Target) : bindNodes schema scope [.text (lead ++ p.name ++ " ")] =
      .ok [.text (lead ++ p.name ++ " ")] := rfl
  unfold entry boundEntry
  dsimp only
  cases hoptional : p.optional with
  | false =>
    exact bindNodes_append (hlabel _)
      (bindNodes_valueNodes hresolve rfl hsimple.value hsimple.unformatted henum hknown)
  | true =>
    have hinner : resolve schema (some { Target.ofProperty schema p with optional := false })
        thisName = .ok { Target.ofProperty schema p with optional := false } := by
      rw [resolve, if_pos rfl]
    have hvalue := bindNodes_append (hlabel _)
      (bindNodes_valueNodes hinner rfl hsimple.value hsimple.unformatted henum hknown)
    have hblock : resolveOptional schema (some (Target.ofType schema type)) p.name =
        .ok (Target.ofProperty schema p) := by
      have hpresent : (Target.ofProperty schema p).optional = true := hoptional
      simp [resolveOptional, hresolve, hpresent, bind, Except.bind, pure, Except.pure]
    rw [if_pos rfl, if_pos rfl, bindNodes, bindNode]
    refine bind_eq_ok.mpr ⟨_, bind_eq_ok.mpr ⟨_, hblock, ?_⟩, rfl⟩
    exact bind_eq_ok.mpr ⟨_, hvalue, rfl⟩

end Binding

/-- The entry of a record type is its template. -/
theorem Entry.compile_composed {schema : Schema} {types : String → Prop} (hc : schema.Composite types)
    {type : String} {d : Declaration} (hd : schema.Composed types type d) :
    Entry.compile schema ⟨type, none⟩ =
      .ok (.compound type (Fragment.boundEntries schema d.entries)) := by
  have hname : d.name = type := (Schema.of_find? hd.declared).2
  have hfilter : (schema.find? type).filter (fun d => !d.isEnum) = some d := by
    rw [hd.declared, Option.filter_some, hd.record]
    rfl
  unfold Entry.compile
  rw [hd.compound]
  simp only [hfilter, hname, bindRecord_composed hc hd]

/-- Plain types have text programs, whatever the schema declares. -/
theorem Entry.compile_scalarType (schema : Schema) {type : String} (h : type ∈ scalarTypes) :
    ∃ program, Entry.compile schema ⟨type, none⟩ = .ok (.scalar program) := by
  simp only [scalarTypes, List.mem_cons, List.not_mem_nil, or_false] at h
  rcases h with rfl | rfl | rfl | rfl | rfl
  all_goals exact ⟨_, rfl⟩

/-- The template of a record requests the types of its properties, without formats. -/
theorem Fragment.keysAll_boundEntries (schema : Schema) (es : List (String × Property)) :
    Node.keysAll (boundEntries schema es) = es.map fun e => ⟨e.2.type, none⟩ := by
  have happend (ns ms : List Node) : Node.keysAll (ns ++ ms) = Node.keysAll ns ++ Node.keysAll ms := by
    induction ns with
    | nil => rfl
    | cons n ns ih => rw [List.cons_append, Node.keysAll, Node.keysAll, ih, List.append_assoc]
  have hvalue (type : String) (array : Bool) (decorators : List Decorator) (name : String) :
      Node.keysAll (boundValue type array decorators name) = [⟨type, none⟩] := by
    cases array <;> rfl
  induction es with
  | nil => rfl
  | cons e es ih =>
    have hentry : Node.keysAll (boundEntry schema e) = [⟨e.2.type, none⟩] := by
      unfold boundEntry
      cases e.2.optional <;> simp [Node.keysAll, Node.keys, Node.text, hvalue]
    rw [boundEntries, List.flatMap_cons, happend, hentry, List.map_cons]
    exact congrArg _ ih

end ClauseTemplates
