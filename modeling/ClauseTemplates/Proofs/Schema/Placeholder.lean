import ClauseTemplates.Calendar.Instant
import ClauseTemplates.Proofs.Entry.Record
import ClauseTemplates.Proofs.Json.Sorted
import ClauseTemplates.Schema.Placeholder
import Mathlib.Data.List.Chain

namespace ClauseTemplates

namespace Json

mutual

/-- How many objects lie inside one another. -/
def objectDepth : Json → Nat
  | .arr items => objectDepthItems items
  | .obj fields => objectDepthFields fields + 1
  | _ => 0

def objectDepthItems : List Json → Nat
  | [] => 0
  | item :: rest => max (objectDepth item) (objectDepthItems rest)

def objectDepthFields : List (String × Json) → Nat
  | [] => 0
  | (_, value) :: rest => max (objectDepth value) (objectDepthFields rest)

end

theorem objectDepthFields_le {fields : Fields} {n : Nat}
    (h : ∀ field ∈ fields, field.2.objectDepth ≤ n) : objectDepthFields fields ≤ n := by
  induction fields with
  | nil => exact Nat.zero_le n
  | cons field fields ih =>
    obtain ⟨hfield, hfields⟩ := List.forall_mem_cons.mp h
    exact Nat.max_le.mpr ⟨hfield, ih hfields⟩

/-- A value, or one that lies in it at any depth. -/
inductive Inside (part : Json) : Json → Prop
  | here : Inside part part
  | item {items : List Json} {value : Json} (hmem : value ∈ items) (h : Inside part value) :
      Inside part (.arr items)
  | field {fields : Fields} {name : String} {value : Json} (hmem : (name, value) ∈ fields)
      (h : Inside part value) : Inside part (.obj fields)

end Json

/-- The values of a primitive type. -/
inductive OfPrimitive : String → Json → Prop
  | string (s : String) : OfPrimitive "String" (.str s)
  | boolean (b : Bool) : OfPrimitive "Boolean" (.bool b)
  | integer {i : Int} (h : Json.inInt64 i = true) : OfPrimitive "Integer" (.int i)
  | long {i : Int} (h : Json.inInt64 i = true) : OfPrimitive "Long" (.int i)
  | double (x : Double) : OfPrimitive "Double" (.double x)
  | dateTime {s : String} {t : Instant} (h : Instant.read s.toList = .ok t) :
      OfPrimitive "DateTime" (.str s)

theorem OfPrimitive.isPrimitive {type : String} {value : Json} (h : OfPrimitive type value) :
    isPrimitive type = true := by
  cases h <;> rfl

theorem ofPrimitive_primitivePlaceholder {type : String} (h : isPrimitive type = true) :
    OfPrimitive type (primitivePlaceholder type) := by
  have hmem : type ∈ primitiveTypes := List.contains_iff_mem.mp h
  simp only [primitiveTypes, List.mem_cons, List.not_mem_nil, or_false] at hmem
  rcases hmem with rfl | rfl | rfl | rfl | rfl | rfl
  · exact .string _
  · exact .boolean _
  · exact .integer rfl
  · exact .long rfl
  · exact .double _
  · exact .dateTime (t := ⟨0, 0, 0⟩) rfl

/-- One value of a property, in an array if the property has several. -/
def Property.wrapped (p : Property) (value : Json) : Json := if p.array then .arr [value] else value

namespace Declaration

/-- The properties that placeholders have besides the class. -/
def required (d : Declaration) : List Property :=
  d.properties.filter fun p => !p.optional && !p.isSystem

/-- The class and the required properties are the fields, and no field stands twice. -/
structure Keyed (d : Declaration) (fields : Json.Fields) : Prop where
  sorted : fields.Sorted
  className : fields.get? "$class" = some (.str d.name)
  names : ∀ name, name ∈ fields.map Prod.fst ↔ name = "$class" ∨ ∃ p ∈ d.required, p.name = name

/-- The fields of a placeholder as they are written one after another. -/
def placeholderFields (d : Declaration) (value : Property → Json) : List (String × Json) :=
  ("$class", .str d.name) :: d.required.map fun p => (p.name, p.wrapped (value p))

variable {d : Declaration}

theorem name_ne_class {p : Property} (h : p ∈ d.required) : p.name ≠ "$class" := by
  intro hname
  have hsystem : p.isSystem = true := by
    unfold Property.isSystem
    rw [hname]
    rfl
  simp [required, hsystem] at h

theorem nodup_placeholderFields (h : (d.properties.map (·.name)).Nodup) (value : Property → Json) :
    ((d.placeholderFields value).map Prod.fst).Nodup := by
  have hnames : (d.placeholderFields value).map Prod.fst = "$class" :: d.required.map (·.name) := by
    simp [placeholderFields]
  rw [hnames, List.nodup_cons]
  constructor
  · intro hmem
    obtain ⟨p, hp, hname⟩ := List.mem_map.mp hmem
    exact name_ne_class hp hname
  · exact h.sublist (List.filter_sublist.map _)

theorem keyed_placeholderFields (h : (d.properties.map (·.name)).Nodup) (value : Property → Json) :
    d.Keyed (Json.Fields.ofList (d.placeholderFields value)) where
  sorted := Json.Fields.sorted_ofList _
  className :=
    Json.Fields.get?_ofList_of_mem (nodup_placeholderFields h value) List.mem_cons_self
  names name := by
    rw [Json.Fields.mem_names_ofList]
    simp [placeholderFields, eq_comm]

end Declaration

namespace Schema

/-- Values are found for all that a record requires: its types are known, no two of its properties
share a name, no enumeration is empty, and primitive types are not declared. -/
structure Fillable (schema : Schema) : Prop where
  known : ∀ d ∈ schema.declarations, d.isEnum = false → ∀ p ∈ d.properties,
    schema.knows p.type = true
  distinct : ∀ d ∈ schema.declarations, d.isEnum = false → (d.properties.map (·.name)).Nodup
  valued : ∀ d ∈ schema.declarations, d.isEnum = true → d.values ≠ []
  declared : ∀ d ∈ schema.declarations, isPrimitive d.name = false

/-- Each value of the one type has a value of the other one in it, and not just a reference. -/
def Requires (schema : Schema) (outer inner : String) : Prop :=
  ∃ d ∈ schema.find? outer,
    ∃ p ∈ d.properties, p.optional = false ∧ p.relationship = false ∧ p.type = inner

instance (schema : Schema) (outer inner : String) : Decidable (schema.Requires outer inner) :=
  inferInstanceAs (Decidable (∃ d ∈ schema.find? outer,
    ∃ p ∈ d.properties, p.optional = false ∧ p.relationship = false ∧ p.type = inner))

/-- Types of records, each of which requires the next one. -/
structure Chain (schema : Schema) (types : List String) : Prop where
  records : ∀ type ∈ types, schema.isRecord type = true
  linked : types.IsChain schema.Requires

/-- The least value of a type: the first one of an enumeration, and a record with nothing but the
required properties. -/
inductive Sample (schema : Schema) : String → Json → Prop
  | primitive {type : String} {value : Json} (h : OfPrimitive type value) : Sample schema type value
  | enum {type : String} {d : Declaration} {s : String} (hd : schema.find? type = some d)
      (henum : d.isEnum = true) (hs : d.values.head? = some s) : Sample schema type (.str s)
  | record {type : String} {d : Declaration} {fields : Json.Fields} (value : Property → Json)
      (hd : schema.find? type = some d) (henum : d.isEnum = false) (hkeyed : d.Keyed fields)
      (hfields : ∀ p ∈ d.required, fields.get? p.name = some (p.wrapped (value p)))
      (hreferences : ∀ p ∈ d.required, p.relationship = true →
        value p = .str (resourceUri p.type "placeholder"))
      (hvalues : ∀ p ∈ d.required, p.relationship = false → Sample schema p.type (value p)) :
      Sample schema type (.obj fields)

/-- The value of a property, or of each element. -/
def elementPlaceholder (schema : Schema) (levels : Nat) (p : Property) : Json :=
  if p.relationship then .str (resourceUri p.type "placeholder")
  else placeholderWithin schema levels p.type

variable {schema : Schema} {type : String}

theorem Chain.cons {outer inner : String} {types : List String} (h : schema.Chain (inner :: types))
    (houter : schema.isRecord outer = true) (hrequires : schema.Requires outer inner) :
    schema.Chain (outer :: inner :: types) :=
  ⟨List.forall_mem_cons.mpr ⟨houter, h.records⟩, List.isChain_cons_cons.mpr ⟨hrequires, h.linked⟩⟩

/-- Chains are short where ranks fall from each record to the records that it requires. -/
theorem Chain.length_le (rank : String → Nat) {types : List String}
    (hrank : ∀ d ∈ schema.declarations, ∀ p ∈ d.properties, p.optional = false →
      p.relationship = false → schema.isRecord p.type = true → rank p.type < rank d.name)
    (h : schema.Chain (type :: types)) : (type :: types).length ≤ rank type + 1 := by
  induction types generalizing type with
  | nil => exact Nat.succ_le_succ (Nat.zero_le _)
  | cons inner types ih =>
    obtain ⟨-, hinner⟩ := List.forall_mem_cons.mp h.records
    obtain ⟨⟨d, hd, p, hp, hoptional, href, rfl⟩, hlinked⟩ := List.isChain_cons_cons.mp h.linked
    obtain ⟨hmem, rfl⟩ := Schema.of_find? hd
    have hless := hrank d hmem p hp hoptional href (hinner _ List.mem_cons_self)
    have hlength := ih ⟨hinner, hlinked⟩
    rw [List.length_cons]
    omega

theorem placeholderWithin_primitive (h : isPrimitive type = true) (levels : Nat) :
    placeholderWithin schema levels type = primitivePlaceholder type := by
  unfold placeholderWithin
  exact if_pos h

theorem placeholderWithin_enum {d : Declaration} (hprimitive : isPrimitive type = false)
    (hd : schema.find? type = some d) (henum : d.isEnum = true) (levels : Nat) :
    placeholderWithin schema (levels + 1) type = Json.ofString? d.values.head? := by
  unfold placeholderWithin
  simp [hprimitive, hd, henum, Json.ofString?]

theorem placeholderWithin_record {d : Declaration} (hprimitive : isPrimitive type = false)
    (hd : schema.find? type = some d) (henum : d.isEnum = false) (levels : Nat) :
    placeholderWithin schema (levels + 1) type =
      .obj (Json.Fields.ofList (d.placeholderFields (elementPlaceholder schema levels))) := by
  have hfields : Json.Fields.ofList (d.placeholderFields (elementPlaceholder schema levels)) =
      d.required.foldl (fun fields p => Json.Fields.insert p.name
        (propertyPlaceholder (placeholderWithin schema levels) p) fields)
        [("$class", .str d.name)] := by
    unfold Json.Fields.ofList Declaration.placeholderFields
    rw [List.foldl_cons, List.foldl_map]
    rfl
  rw [hfields]
  unfold placeholderWithin
  simp only [hprimitive, hd, henum, Bool.false_eq_true, if_false]
  rfl

/-! ### Depth -/

theorem objectDepth_wrapped (p : Property) (value : Json) :
    (p.wrapped value).objectDepth = value.objectDepth := by
  unfold Property.wrapped
  split
  · simp [Json.objectDepth, Json.objectDepthItems]
  · rfl

theorem objectDepth_primitivePlaceholder (type : String) :
    (primitivePlaceholder type).objectDepth = 0 := by
  unfold primitivePlaceholder
  split_ifs <;> rfl

/-- Records lie inside one another as deep as there are levels, whatever the types refer to. -/
theorem objectDepth_placeholderWithin (schema : Schema) (levels : Nat) (type : String) :
    (placeholderWithin schema levels type).objectDepth ≤ levels := by
  induction levels generalizing type with
  | zero =>
    unfold placeholderWithin
    split
    · rw [objectDepth_primitivePlaceholder]
    · exact Nat.le_refl 0
  | succ levels ih =>
    have helement : ∀ p, (elementPlaceholder schema levels p).objectDepth ≤ levels := by
      intro p
      unfold elementPlaceholder
      split
      · exact Nat.zero_le levels
      · exact ih p.type
    cases hprimitive : isPrimitive type with
    | true =>
      rw [placeholderWithin_primitive hprimitive, objectDepth_primitivePlaceholder]
      exact Nat.zero_le _
    | false =>
      cases hd : schema.find? type with
      | none =>
        unfold placeholderWithin
        rw [hprimitive, hd]
        exact Nat.zero_le _
      | some d =>
        cases henum : d.isEnum with
        | true =>
          rw [placeholderWithin_enum hprimitive hd henum]
          cases d.values.head? <;> exact Nat.zero_le _
        | false =>
          rw [placeholderWithin_record hprimitive hd henum, Json.objectDepth]
          refine Nat.succ_le_succ (Json.objectDepthFields_le fun field hfield => ?_)
          rcases List.mem_cons.mp (Json.Fields.mem_of_mem_ofList hfield) with rfl | hfield
          · exact Nat.zero_le levels
          · obtain ⟨p, -, rfl⟩ := List.mem_map.mp hfield
            rw [objectDepth_wrapped]
            exact helement p

/-! ### Values -/

/-- With more levels than a chain of records has members, nothing is cut off. -/
theorem sample_placeholderWithin (hs : schema.Fillable) {levels : Nat}
    (hknown : schema.knows type = true) (hlevels : 0 < levels)
    (hchain : ∀ types, schema.Chain (type :: types) → (type :: types).length < levels) :
    schema.Sample type (placeholderWithin schema levels type) := by
  induction levels generalizing type with
  | zero => exact absurd hlevels (Nat.lt_irrefl 0)
  | succ levels ih =>
    cases hprimitive : isPrimitive type with
    | true =>
      rw [placeholderWithin_primitive hprimitive]
      exact .primitive (ofPrimitive_primitivePlaceholder hprimitive)
    | false =>
      obtain ⟨d, hd⟩ : ∃ d, schema.find? type = some d := by
        rw [knows, hprimitive, Bool.false_or] at hknown
        exact Option.isSome_iff_exists.mp hknown
      obtain ⟨hmem, -⟩ := Schema.of_find? hd
      cases henum : d.isEnum with
      | true =>
        obtain ⟨s, hvalue⟩ := Option.ne_none_iff_exists'.mp
          (mt List.head?_eq_none_iff.mp (hs.valued d hmem henum))
        rw [placeholderWithin_enum hprimitive hd henum, hvalue]
        exact .enum hd henum hvalue
      | false =>
        have hrecord : schema.isRecord type = true := by
          simp [isRecord, hd, henum]
        have hdistinct := hs.distinct d hmem henum
        -- The record is a chain by itself, so that a level is left for its values.
        have hshort : 1 < levels + 1 := hchain [] ⟨by simpa using hrecord, .singleton _⟩
        rw [placeholderWithin_record hprimitive hd henum]
        refine .record (elementPlaceholder schema levels) hd henum
          (Declaration.keyed_placeholderFields hdistinct _) (fun p hp => ?_)
          (fun p _ href => if_pos href) fun p hp href => ?_
        · refine Json.Fields.get?_ofList_of_mem (Declaration.nodup_placeholderFields hdistinct _) ?_
          exact List.mem_cons_of_mem _ (List.mem_map_of_mem hp)
        · obtain ⟨hproperty, hrequired⟩ := List.mem_filter.mp hp
          have hoptional : p.optional = false := by
            simpa using (Bool.and_eq_true_iff.mp hrequired).1
          have hrequires : schema.Requires type p.type :=
            ⟨d, hd, p, hproperty, hoptional, href, rfl⟩
          rw [elementPlaceholder, if_neg (by simp [href])]
          refine ih (hs.known d hmem henum p hproperty) (by omega) fun types h => ?_
          have hlonger := hchain (p.type :: types) (h.cons hrecord hrequires)
          simpa using hlonger

theorem inside_null_wrapped {p : Property} {value : Json} (h : Json.Inside .null (p.wrapped value)) :
    Json.Inside .null value := by
  unfold Property.wrapped at h
  split at h
  · cases h with
    | item hmem h => exact List.mem_singleton.mp hmem ▸ h
  · exact h

namespace Sample

variable {value : Json}

theorem not_inside_null (h : schema.Sample type value) : ¬ Json.Inside .null value := by
  have hstring : ∀ s, ¬ Json.Inside .null (.str s) := nofun
  induction h with
  | primitive h => cases h <;> nofun
  | enum _ _ _ => exact hstring _
  | record value _ _ hkeyed hfields hreferences _ ih =>
    intro h
    cases h with
    | @field _ name found hmem h =>
      have hfound := Json.Fields.get?_of_mem hkeyed.sorted.nodup hmem
      rcases (hkeyed.names name).mp (List.mem_map_of_mem hmem) with rfl | ⟨p, hp, rfl⟩
      · cases hkeyed.className.symm.trans hfound
        exact hstring _ h
      · cases (hfields p hp).symm.trans hfound
        have hinside := inside_null_wrapped h
        cases href : p.relationship with
        | true =>
          rw [hreferences p hp href] at hinside
          exact hstring _ hinside
        | false => exact ih p hp href hinside

theorem of_record {d : Declaration} (h : schema.Sample type value)
    (hprimitive : isPrimitive type = false) (hd : schema.find? type = some d)
    (henum : d.isEnum = false) :
    ∃ fields, value = .obj fields ∧ d.Keyed fields ∧
      ∀ p ∈ d.required, ∃ found, Json.Fields.get? p.name fields = some (p.wrapped found) ∧
        (p.relationship = true → found = .str (resourceUri p.type "placeholder")) ∧
        (p.relationship = false → schema.Sample p.type found) := by
  cases h with
  | primitive h => simp [h.isPrimitive] at hprimitive
  | enum hd' henum' _ =>
    cases hd.symm.trans hd'
    simp [henum] at henum'
  | record value hd' _ hkeyed hfields hreferences hvalues =>
    cases hd.symm.trans hd'
    exact ⟨_, rfl, hkeyed, fun p hp => ⟨value p, hfields p hp, hreferences p hp, hvalues p hp⟩⟩

end Sample

/-- The placeholder of a record has the class and the required properties as its fields, each with a
value of its type, and holds no null, if chains of records that require one another are short enough.
Records lie at most eight deep in placeholders of any type. -/
theorem placeholder_sample (schema : Schema) (type : String) :
    (schema.Fillable → schema.isRecord type = true →
      (∀ types, schema.Chain (type :: types) → (type :: types).length ≤ 7) →
      ∃ d fields, schema.find? type = some d ∧ placeholder schema type = .obj fields ∧
        d.Keyed fields ∧
        (∀ p ∈ d.required, ∃ value, Json.Fields.get? p.name fields = some (p.wrapped value) ∧
          (p.relationship = true → value = .str (resourceUri p.type "placeholder")) ∧
          (p.relationship = false → schema.Sample p.type value)) ∧
        ¬ Json.Inside .null (placeholder schema type)) ∧
    (placeholder schema type).objectDepth ≤ 8 := by
  refine ⟨fun hs hrecord hchain => ?_, objectDepth_placeholderWithin schema placeholderLevels type⟩
  obtain ⟨d, hd, henum⟩ := (Option.any_eq_true _ _).mp hrecord
  have henum : d.isEnum = false := by simpa using henum
  have hprimitive : isPrimitive type = false := by
    obtain ⟨hmem, rfl⟩ := Schema.of_find? hd
    exact hs.declared d hmem
  have hknown : schema.knows type = true := by simp [knows, hd]
  have hsample : schema.Sample type (placeholder schema type) :=
    sample_placeholderWithin hs hknown (by decide) fun types h => Nat.lt_succ_of_le (hchain types h)
  obtain ⟨fields, hfields, hkeyed, hproperties⟩ := hsample.of_record hprimitive hd henum
  exact ⟨d, fields, hd, hfields, hkeyed, hproperties, hsample.not_inside_null⟩

end Schema

/-- A record that requires one of its own type is cut off after eight levels. -/
example : (placeholder ⟨[.concept "Node" [.plain "next" "Node"]]⟩ "Node").objectDepth = 8 := by
  decide

namespace Portfolio

def declarations : List Declaration :=
  [⟨"Agency", .asset, some "agencyId",
      [.plain "agencyId" "String", .plain "building" "Building",
        ⟨"parent", "Portfolio", false, false, true, []⟩], [], []⟩,
    .concept "Building" [⟨"floors", "Floor", true, false, false, []⟩, .plain "opened" "DateTime"],
    .concept "Flat" [.plain "lease" "Lease", .plain "furnished" "Boolean"],
    .concept "Floor" [.plain "flat" "Flat", .plain "level" "Integer",
      ⟨"above", "Floor", false, true, false, []⟩],
    .concept "Lease" [.plain "rent" monetaryAmount, .plain "$timestamp" "DateTime",
      ⟨"previous", "Lease", false, true, false, []⟩],
    .concept "Portfolio" [⟨"agencies", "Agency", true, false, false, []⟩,
      ⟨"audits", "Lease", true, false, true, []⟩]]

def schema : Schema := declarations.foldl Schema.insert Schema.builtin

/-- Each record before those that require it. -/
def records : List String :=
  [monetaryAmount, "Lease", "Flat", "Floor", "Building", "Agency", "Portfolio"]

/-- The longest chain of records has seven members, and the last one requires an enumeration. -/
theorem placeholder_sample_portfolio :
    Schema.ofDeclarations declarations = .ok schema ∧ schema.Chain records.reverse ∧
      schema.Requires monetaryAmount currencyCode ∧ schema.Fillable ∧
      schema.isRecord "Portfolio" = true ∧
      (∀ types, schema.Chain ("Portfolio" :: types) → ("Portfolio" :: types).length ≤ 7) ∧
      ∃ d fields, schema.find? "Portfolio" = some d ∧
        placeholder schema "Portfolio" = .obj fields ∧ d.Keyed fields ∧
        (∀ p ∈ d.required, ∃ value, Json.Fields.get? p.name fields = some (p.wrapped value) ∧
          (p.relationship = true → value = .str (resourceUri p.type "placeholder")) ∧
          (p.relationship = false → schema.Sample p.type value)) ∧
        ¬ Json.Inside .null (placeholder schema "Portfolio") := by
  have hlongest : schema.Chain records.reverse := ⟨by decide, by decide⟩
  have hs : schema.Fillable := by constructor <;> decide
  have hrecord : schema.isRecord "Portfolio" = true := by decide
  have hchain : ∀ types, schema.Chain ("Portfolio" :: types) →
      ("Portfolio" :: types).length ≤ 7 := by
    intro types h
    exact h.length_le records.idxOf (by decide)
  exact ⟨rfl, hlongest, by decide, hs, hrecord, hchain,
    (Schema.placeholder_sample schema "Portfolio").1 hs hrecord hchain⟩

end Portfolio

end ClauseTemplates
