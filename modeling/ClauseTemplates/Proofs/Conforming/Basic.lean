import ClauseTemplates.Proofs.Drafting.Texts
import ClauseTemplates.Proofs.Template.Keys
import ClauseTemplates.Proofs.Template.Names

namespace ClauseTemplates

open Drafting Binding

/-- The properties of a record have names of their own, none is named for the current value, and none
refers to an enumeration. -/
structure Schema.WellFormed (schema : Schema) : Prop where
  distinct : ∀ d ∈ schema.declarations, d.isEnum = false → (d.properties.map (·.name)).Nodup
  named : ∀ d ∈ schema.declarations, d.isEnum = false → ∀ p ∈ d.properties, p.name ≠ thisName
  references : ∀ d ∈ schema.declarations, d.isEnum = false → ∀ p ∈ d.properties,
    p.relationship = true → schema.isEnum p.type = false

/-- The entries that nodes request, and those that the templates of their compound types request. -/
inductive Requested (schema : Schema) (ns : List Node) : EntryKey → Prop
  | shown {key : EntryKey} (h : key ∈ Node.keysAll ns) : Requested schema ns key
  | inside {outer key : EntryKey} {type : String} {children : List Node}
      (houter : Requested schema ns outer)
      (hcompile : Entry.compile schema outer = .ok (.compound type children))
      (h : key ∈ Node.keysAll children) : Requested schema ns key

/-- The requested programs of its type write the value, and a Boolean is a truth value. -/
structure Accepted (schema : Schema) (requested : EntryKey → Prop) (type : String) (value : Json) :
    Prop where
  boolean : type = "Boolean" → ∃ b, value = .bool b
  written : ∀ format program, requested ⟨type, format⟩ →
    Entry.compile schema ⟨type, format⟩ = .ok (.scalar program) → ∃ text, program.draft value = .ok text

/-- A value fits what a name stands for. Where a type is declared, its values are records with the
required fields or values of the enumeration, also where a text program writes them. -/
inductive Conforms (schema : Schema) (requested : EntryKey → Prop) : Target → Json → Prop
  | array {t : Target} {items : List Json} (harray : t.array = true)
      (hitems : ∀ item ∈ items, Conforms schema requested t.element item) :
      Conforms schema requested t (.arr items)
  | reference {t : Target} {s id : String} (harray : t.array = false) (href : t.relationship = true)
      (hid : resourceId? s = some id) : Conforms schema requested t (.str s)
  | single {t : Target} {value : Json} (harray : t.array = false) (href : t.relationship = false)
      (hnull : value.isNull = false) (haccepted : Accepted schema requested t.type value)
      (hvalues : ∀ d, schema.find? t.type = some d → d.isEnum = true → ∃ s ∈ d.values, value = .str s)
      (hrecord : ∀ d, schema.find? t.type = some d → d.isEnum = false → value.isObject = true ∧
        ∀ p ∈ d.properties, p.optional = false → (field? value p.name).isSome = true)
      (hfields : ∀ d, schema.find? t.type = some d → d.isEnum = false → ∀ p ∈ d.properties, ∀ v,
        field? value p.name = some v → Conforms schema requested (Target.ofProperty schema p) v) :
      Conforms schema requested t value

namespace Conforms

variable {schema : Schema} {requested : EntryKey → Prop} {t : Target} {value : Json}

/-- What counts is the type, and whether there are several values or references. -/
theorem congr {u : Target} (h : Conforms schema requested t value) (htype : u.type = t.type)
    (harray : u.array = t.array) (href : u.relationship = t.relationship) :
    Conforms schema requested u value := by
  induction h generalizing u with
  | array h _ ih => exact .array (harray.trans h) fun item hitem => ih item hitem htype rfl href
  | reference h h' hid => exact .reference (harray.trans h) (href.trans h') hid
  | single h h' hnull haccepted hvalues hrecord hfields _ =>
    rw [← htype] at haccepted hvalues hrecord hfields
    exact .single (harray.trans h) (href.trans h') hnull haccepted hvalues hrecord hfields

theorem not_null (h : Conforms schema requested t value) : value.isNull = false := by
  cases h with
  | array _ _ => rfl
  | reference _ _ _ => rfl
  | single _ _ hnull _ _ _ _ => exact hnull

theorem items (h : Conforms schema requested t value) (harray : t.array = true) :
    ∃ items, value = .arr items ∧ ∀ item ∈ items, Conforms schema requested t.element item := by
  cases h with
  | array _ hitems => exact ⟨_, rfl, hitems⟩
  | reference h _ _ => exact absurd harray (by simp [h])
  | single h _ _ _ _ _ _ => exact absurd harray (by simp [h])

theorem identifier (h : Conforms schema requested t value) (harray : t.array = false)
    (href : t.relationship = true) : ∃ id, value.string?.bind resourceId? = some id := by
  cases h with
  | array h _ => exact absurd harray (by simp [h])
  | reference _ _ hid => exact ⟨_, hid⟩
  | single _ h _ _ _ _ _ => exact absurd href (by simp [h])

theorem accepted (h : Conforms schema requested t value) (harray : t.array = false)
    (href : t.relationship = false) : Accepted schema requested t.type value := by
  cases h with
  | array h _ => exact absurd harray (by simp [h])
  | reference _ h _ => exact absurd href (by simp [h])
  | single _ _ _ haccepted _ _ _ => exact haccepted

theorem enumerated {d : Declaration} (h : Conforms schema requested t value) (harray : t.array = false)
    (href : t.relationship = false) (hd : schema.find? t.type = some d) (henum : d.isEnum = true) :
    ∃ s ∈ d.values, value = .str s := by
  cases h with
  | array h _ => exact absurd harray (by simp [h])
  | reference _ h _ => exact absurd href (by simp [h])
  | single _ _ _ _ hvalues _ _ => exact hvalues d hd henum

theorem record {d : Declaration} (h : Conforms schema requested t value) (harray : t.array = false)
    (href : t.relationship = false) (hd : schema.find? t.type = some d) (henum : d.isEnum = false) :
    value.isObject = true ∧ ∀ p ∈ d.properties,
      (p.optional = false → (field? value p.name).isSome = true) ∧
        ∀ v, field? value p.name = some v → Conforms schema requested (Target.ofProperty schema p) v := by
  cases h with
  | array h _ => exact absurd harray (by simp [h])
  | reference _ h _ => exact absurd href (by simp [h])
  | single _ _ _ _ _ hrecord hfields =>
    obtain ⟨hobject, hrequired⟩ := hrecord d hd henum
    exact ⟨hobject, fun p hp => ⟨hrequired p hp, hfields d hd henum p hp⟩⟩

theorem ofRecord {d : Declaration} {fields : Json.Fields} (harray : t.array = false)
    (href : t.relationship = false) (haccepted : Accepted schema requested t.type (.obj fields))
    (hd : schema.find? t.type = some d) (henum : d.isEnum = false)
    (hproperties : ∀ p ∈ d.properties,
      (p.optional = false → (field? (.obj fields) p.name).isSome = true) ∧
        ∀ v, field? (.obj fields) p.name = some v →
          Conforms schema requested (Target.ofProperty schema p) v) :
    Conforms schema requested t (.obj fields) := by
  have hsame {d' : Declaration} (h : schema.find? t.type = some d') : d' = d :=
    Option.some.inj (h.symm.trans hd)
  refine .single harray href rfl haccepted (fun d' h h' => ?_)
    (fun d' h _ => ⟨rfl, fun p hp => (hproperties p (hsame h ▸ hp)).1⟩)
    fun d' h _ p hp => (hproperties p (hsame h ▸ hp)).2
  rw [hsame h, henum] at h'
  cases h'

theorem isObject (h : Conforms schema requested t value) (harray : t.array = false)
    (href : t.relationship = false) (hrecord : schema.isRecord t.type = true) :
    value.isObject = true := by
  obtain ⟨d, hd, henum⟩ := (Option.any_eq_true _ _).mp hrecord
  exact (h.record harray href hd (by simpa using henum)).1

end Conforms

namespace Binding

/-- What a name stands for in a scope. No field is read through a reference, and no required one
through a value of a sealed type. -/
structure Names (schema : Schema) (isSealed : String → Bool) (scope : Option Target) (name : String)
    (optional : Bool) (t : Target) : Prop where
  resolves : resolve schema scope name = .ok t
  kept : t.optional = optional
  direct : name = thisName ∨ ∀ s ∈ scope, s.relationship = false ∧
    (optional = false → isSealed s.type = false)

end Binding

section

variable (schema : Schema) (isSealed : String → Bool)

mutual

/-- The nodes evaluate no code, read values as what they are declared to be, and name optional
properties in the blocks for them only. -/
def Node.Sound : Option Target → Node → Prop
  | scope, .variable v => ∃ t, Names schema isSealed scope v.name false t
  | _, .enumVariable _ => False
  | _, .formula _ => False
  | scope, .conditional name condition whenTrue whenFalse => condition = none ∧
    (∃ t, Names schema isSealed scope name false t ∧ t.relationship = false) ∧
      Node.SoundAll scope whenTrue ∧ Node.SoundAll none whenFalse
  | scope, .optional name _ whenSome whenNone =>
    (∃ t, Names schema isSealed scope name true t ∧
      Node.SoundAll (some { t with optional := false }) whenSome) ∧ Node.SoundAll none whenNone
  | scope, .within name _ children => ∃ t, Names schema isSealed scope name false t ∧
    t.relationship = false ∧ schema.isRecord t.type = true ∧ Node.SoundAll (some t.element) children
  | scope, .list name _ _ children => ∃ t, Names schema isSealed scope name false t ∧
    Node.SoundAll (some t.element) children
  | scope, .join name _ _ children => ∃ t, Names schema isSealed scope name false t ∧
    Node.SoundAll (some t.element) children
  | scope, .clause name _ _ condition children => condition = none ∧
    ∃ t, Names schema isSealed scope name false t ∧ t.relationship = false ∧
      schema.isRecord t.type = true ∧ Node.SoundAll (some t.element) children
  | scope, .contract _ children => Node.SoundAll scope children
  | _, .leaf _ => True
  | scope, .markup _ children => Node.SoundAll scope children

def Node.SoundAll : Option Target → List Node → Prop
  | _, [] => True
  | scope, n :: rest => n.Sound scope ∧ Node.SoundAll scope rest

end

end

mutual

/-- The arrays that lists show are not empty. -/
def Node.Stocked : Node → Json → Prop
  | .variable _, _ => True
  | .enumVariable _, _ => True
  | .formula _, _ => True
  | .conditional name _ whenTrue whenFalse, scope =>
    (field? scope name = some (.bool true) → Node.StockedAll whenTrue scope) ∧
      Node.StockedAll whenFalse .null
  | .optional name _ whenSome whenNone, scope =>
    (∀ value, field? scope name = some value → Node.StockedAll whenSome value) ∧
      Node.StockedAll whenNone .null
  | .within name _ children, scope =>
    ∀ value, field? scope name = some value → Node.StockedAll children value
  | .list name _ _ children, scope => ∀ items, array? scope name = some items →
    items ≠ [] ∧ ∀ item ∈ items, Node.StockedAll children item
  | .join name _ _ children, scope => ∀ items, array? scope name = some items →
    ∀ item ∈ items, Node.StockedAll children item
  | .clause name _ _ _ children, scope =>
    ∀ value, field? scope name = some value → Node.StockedAll children value
  | .contract _ children, scope => Node.StockedAll children scope
  | .leaf _, _ => True
  | .markup _ children, scope => Node.StockedAll children scope

def Node.StockedAll : List Node → Json → Prop
  | [], _ => True
  | n :: rest, scope => n.Stocked scope ∧ Node.StockedAll rest scope

end

end ClauseTemplates
