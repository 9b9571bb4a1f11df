import ClauseTemplates.Proofs.Format.Integers
import ClauseTemplates.Proofs.Format.Quoted
import ClauseTemplates.Proofs.Format.Times
import ClauseTemplates.Proofs.Json.Sorted
import ClauseTemplates.Proofs.Record.Shape
import ClauseTemplates.Proofs.Scan.Separated

namespace ClauseTemplates

open Scan Scanner Json

/-- A value of a scalar type: a string, a truth value, an integer that fits 64 bits, or a time to the
millisecond, as it is written. -/
inductive ScalarValue : String → Json → Prop
  | string (s : String) : ScalarValue "String" (.str s)
  | boolean (b : Bool) : ScalarValue "Boolean" (.bool b)
  | integer {type : String} {i : Int} (htype : type = "Integer" ∨ type = "Long")
      (hfits : Json.inInt64 i = true) : ScalarValue type (.int i)
  | time {s : String} {t : Instant} (hread : Instant.read s.toList = .ok t)
      (hleap : t.nanos < 1000000000) (hwritten : t.toMillis.text = s) : ScalarValue "DateTime" (.str s)

/-- A value fits a type, or if it is an array, each element does. Records have their required fields
and no others than the declared ones; what is optional and absent has no field. -/
inductive Schema.Holds (schema : Schema) : String → Bool → Json → Prop
  | scalar {type : String} {value : Json} (h : ScalarValue type value) : Holds schema type false value
  | array {type : String} {items : List Json} (hitems : ∀ item ∈ items, Holds schema type false item) :
      Holds schema type true (.arr items)
  | record {type : String} {d : Declaration} {fields : Fields}
      (hd : schema.find? type = some d) (hcompound : ScalarType.ofName? type = none)
      (hsorted : fields.Sorted)
      (hdeclared : ∀ name v, Fields.get? name fields = some v → (d.property? name).isSome = true)
      (hrequired : ∀ p ∈ d.properties, p.optional = false → (Fields.get? p.name fields).isSome = true)
      (hvalues : ∀ p ∈ d.properties, ∀ v, Fields.get? p.name fields = some v →
        Holds schema p.type p.array v) : Holds schema type false (.obj fields)

namespace Schema

variable (schema : Schema)

def entries (type : String) : List (String × Property) :=
  ((schema.find? type).map (·.entries)).getD []

def fieldType (type name : String) : String :=
  (((schema.find? type).bind (·.property? name)).map (·.type)).getD ""

mutual

/-- A value of a type with the class of every record in it. -/
def classed (type : String) : Json → Json
  | .obj fields => .obj (Fields.insertNew "$class" (.str type) (classedFields type fields))
  | .arr items => .arr (classedItems type items)
  | value => value

def classedItems (type : String) : List Json → List Json
  | [] => []
  | item :: rest => classed type item :: classedItems type rest

def classedFields (type : String) : Fields → Fields
  | [] => []
  | (name, value) :: rest =>
    (name, classed (schema.fieldType type name) value) :: classedFields type rest

end

/-- The text of a value of a type that has a text program. -/
def scalarText (type : String) (value : Json) : List Char :=
  match Entry.compile schema ⟨type, none⟩ with
  | .ok (.scalar program) => (program.draft value).toOption.getD []
  | _ => []

end Schema

namespace Fragment

/-- What stands between elements. -/
def separator : List Char := Text.escaped Markup.defaultSeparator.toList

/-- What stands in front of the value of a property. -/
def label (e : String × Property) : List Char := Text.escaped (e.1 ++ e.2.name ++ " ").toList

def itemsText : List (List Char) → List Char
  | [] => []
  | text :: rest => text ++ rest.flatMap (separator ++ ·)

end Fragment

namespace Schema

variable (schema : Schema)

mutual

/-- The text that shows a value of a type: of a record its fields in the order in which they are
declared, each behind its name. -/
def textOf (type : String) : Json → List Char
  | .obj fields => (schema.entries type).flatMap fun e =>
    (((fieldTexts type fields).lookup e.2.name).map (Fragment.label e ++ ·)).getD []
  | .arr items => '[' :: Fragment.itemsText (itemTexts type items) ++ [']']
  | value => schema.scalarText type value

def itemTexts (type : String) : List Json → List (List Char)
  | [] => []
  | item :: rest => textOf type item :: itemTexts type rest

def fieldTexts (type : String) : Fields → List (String × List Char)
  | [] => []
  | (name, value) :: rest => (name, textOf (schema.fieldType type name) value) :: fieldTexts type rest

end

variable {schema} {type name : String} {d : Declaration} {p : Property} {fields : Fields} {v : Json}

theorem classedItems_eq (items : List Json) :
    schema.classedItems type items = items.map (schema.classed type) := by
  induction items with
  | nil => rfl
  | cons item items ih => rw [classedItems, ih, List.map_cons]

theorem itemTexts_eq (items : List Json) :
    schema.itemTexts type items = items.map (schema.textOf type) := by
  induction items with
  | nil => rfl
  | cons item items ih => rw [itemTexts, ih, List.map_cons]

theorem get?_classedFields (type name : String) (fields : Fields) :
    Fields.get? name (schema.classedFields type fields) =
      (Fields.get? name fields).map (schema.classed (schema.fieldType type name)) := by
  induction fields with
  | nil => rfl
  | cons field fields ih =>
    obtain ⟨other, value⟩ := field
    rw [classedFields, Fields.get?_cons, Fields.get?_cons, ih]
    by_cases h : name = other
    · simp [h]
    · simp [h]

theorem lookup_fieldTexts (type name : String) (fields : Fields) :
    (schema.fieldTexts type fields).lookup name =
      (Fields.get? name fields).map (schema.textOf (schema.fieldType type name)) := by
  induction fields with
  | nil => rfl
  | cons field fields ih =>
    obtain ⟨other, value⟩ := field
    rw [fieldTexts, List.lookup_cons, Fields.get?_cons, ih]
    by_cases h : name = other
    · simp [h]
    · simp [h, beq_eq_false_iff_ne.mpr h]

theorem sorted_classedFields (h : fields.Sorted) : (schema.classedFields type fields).Sorted := by
  have hnames (fields : Fields) :
      (schema.classedFields type fields).map Prod.fst = fields.map Prod.fst := by
    induction fields with
    | nil => rfl
    | cons field fields ih =>
      obtain ⟨other, value⟩ := field
      rw [classedFields, List.map_cons, List.map_cons, ih]
  have hpairs : ((schema.classedFields type fields).map Prod.fst).Pairwise (· < ·) := by
    rw [hnames]
    exact List.pairwise_map.mpr h
  exact List.pairwise_map.mp hpairs

/-- The text of a property of a record; there is none for an absent one. -/
def entryText (schema : Schema) (fields : Fields) (e : String × Property) : List Char :=
  ((Fields.get? e.2.name fields).map fun v => Fragment.label e ++ schema.textOf e.2.type v).getD []

def entriesText (schema : Schema) (fields : Fields) (es : List (String × Property)) : List Char :=
  es.flatMap (schema.entryText fields)

theorem entryText_some {e : String × Property} (h : Fields.get? e.2.name fields = some v) :
    schema.entryText fields e = Fragment.label e ++ schema.textOf e.2.type v := by
  rw [entryText, h]
  rfl

theorem entryText_none {e : String × Property} (h : Fields.get? e.2.name fields = none) :
    schema.entryText fields e = [] := by
  rw [entryText, h]
  rfl

theorem entriesText_cons (e : String × Property) (es : List (String × Property)) :
    schema.entriesText fields (e :: es) = schema.entryText fields e ++ schema.entriesText fields es :=
  List.flatMap_cons

section

variable {types : String → Prop} (hd : schema.Composed types type d)

include hd

theorem entries_composed : schema.entries type = d.entries := by
  rw [entries, hd.declared]
  rfl

theorem fieldType_composed (hp : p ∈ d.properties) : schema.fieldType type p.name = p.type := by
  have hfound : d.property? p.name = some p := Fragment.find?_property hd.distinct hp
  rw [fieldType, hd.declared, Option.bind_some, hfound]
  rfl

theorem textOf_obj : schema.textOf type (.obj fields) = schema.entriesText fields d.entries := by
  rw [textOf, entries_composed hd, entriesText]
  refine List.flatMap_congr fun e he => ?_
  rw [lookup_fieldTexts, fieldType_composed hd (Fragment.mem_properties he), entryText, Option.map_map]
  rfl

/-- The class comes on top of the fields. -/
theorem get?_classed (h : ∀ name v, Fields.get? name fields = some v → (d.property? name).isSome = true)
    (name : String) :
    Fields.get? name (Fields.insertNew "$class" (.str type) (schema.classedFields type fields)) =
      if name = "$class" then some (.str type)
      else (Fields.get? name fields).map (schema.classed (schema.fieldType type name)) := by
  have hclass : Fields.get? "$class" fields = none := by
    cases hget : Fields.get? "$class" fields with
    | none => rfl
    | some v =>
      obtain ⟨p, hp⟩ := Option.isSome_iff_exists.mp (h _ _ hget)
      obtain ⟨hmem, hname⟩ := Declaration.of_property? hp
      have hsystem := (hd.named p hmem).2
      rw [Property.isSystem, hname] at hsystem
      cases hsystem
  rw [Fields.get?_insertNew, get?_classedFields]
  split
  · rename_i heq
    rw [heq, hclass]
    rfl
  · rfl

end

end Schema

/-- What can stand behind a value: the next property or element, the end of the array, or nothing. -/
def BehindValue (rest : List Char) : Prop := ∀ c ∈ rest.head?, c = ',' ∨ c = ']'

theorem BehindValue.isDigit {rest : List Char} (h : BehindValue rest) :
    ∀ c ∈ rest.head?, c.isDigit = false := by
  intro c hc
  rcases h c hc with rfl | rfl <;> rfl

theorem DateTimeFormat.compile_standard : compile none = .ok ⟨tokensOf standard⟩ := by decide

/-- A time to the millisecond is read back from its text. -/
theorem DateTimeFormat.read?_standard {s : String} {t : Instant}
    (hread : Instant.read s.toList = .ok t) (hleap : t.nanos < 1000000000)
    (hwritten : t.toMillis.text = s) :
    ∃ text, draft ⟨tokensOf standard⟩ (.str s) = .ok text ∧
      ∀ rest, BehindValue rest → ∀ context offset,
        read? (scanner ⟨tokensOf standard⟩ context) ⟨offset, text ++ rest⟩ =
          some (.str s, ⟨offset + text.length, rest⟩) := by
  obtain ⟨c, seconds, hc, hseconds, rfl⟩ := Instant.read_eq_ok hread hleap
  refine ⟨(tokensOf standard).flatMap (tokenText c seconds), ?_, fun rest hrest context offset => ?_⟩
  · unfold draft
    dsimp only
    rw [hread]
    dsimp only
    rw [Instant.localTime_ofLocal hc]
    rfl
  · have hcomplete : Complete ⟨tokensOf standard⟩ := by unfold Complete; decide
    have hdelimited : Delimited ⟨tokensOf standard⟩ := by unfold Delimited; decide
    have hscan := read?_scanner_before hc hseconds hcomplete (literal_nil_not_mem compile_standard)
      hdelimited hrest.isDigit context offset
    rwa [hwritten] at hscan

/-- Plain values are read back from their texts, which end where the next value begins. -/
theorem ScalarValue.reads (schema : Schema) {type : String} {value : Json}
    (h : ScalarValue type value) :
    ∃ program, Entry.compile schema ⟨type, none⟩ = .ok (.scalar program) ∧
      program.draft value = .ok (schema.textOf type value) ∧
      ∀ rest, BehindValue rest → ∀ context offset,
        read? (program.scanner context) ⟨offset, schema.textOf type value ++ rest⟩ =
          some (value, ⟨offset + (schema.textOf type value).length, rest⟩) := by
  have key (program : ScalarProgram) (text : List Char)
      (hentry : Entry.compile schema ⟨type, none⟩ = .ok (.scalar program))
      (hdraft : program.draft value = .ok text) : schema.textOf type value = text := by
    have hscalar : schema.textOf type value = schema.scalarText type value := by
      cases h <;> rfl
    rw [hscalar, Schema.scalarText, hentry]
    dsimp only
    rw [hdraft]
    rfl
  cases h with
  | string s =>
    have htext := key .string (Text.quoted s.toList) rfl rfl
    refine ⟨.string, rfl, by rw [htext]; rfl, fun rest _ context offset => ?_⟩
    have hread := ScalarProgram.read?_quotedScanner s.toList offset rest
    rw [htext, ScalarProgram.scanner, read?_bind, hread, Option.bind_some, String.ofList_toList]
    rfl
  | boolean b =>
    cases b with
    | false =>
      refine ⟨.boolean, rfl, rfl, fun rest _ context offset => ?_⟩
      change read? (orElse _ _) ⟨offset, "false".toList ++ rest⟩ = _
      have hother : read? (exactly "true".toList) ⟨offset, "false".toList ++ rest⟩ = none :=
        read?_exactly_none (by simp)
      rw [read?_orElse, read?_bind, hother, read?_bind, read?_exactly]
      rfl
    | true =>
      refine ⟨.boolean, rfl, rfl, fun rest _ context offset => ?_⟩
      change read? (orElse _ _) ⟨offset, "true".toList ++ rest⟩ = _
      rw [read?_orElse, read?_bind, read?_exactly]
      rfl
  | integer htype hfits =>
    have hformat : NumberFormat.integer none = .ok ⟨true, none⟩ := rfl
    obtain ⟨text, hdraft, hread⟩ := NumberFormat.read?_scanner_draft hformat hfits
    rcases htype with rfl | rfl
    all_goals
      refine ⟨.number ⟨true, none⟩, rfl, ?_⟩
      have htext := key _ text rfl hdraft
      rw [htext]
      refine ⟨hdraft, fun rest hrest context offset => hread rest ⟨hrest.isDigit, ?_⟩ offset⟩
      rintro m ⟨⟩
  | time hread hleap hwritten =>
    obtain ⟨text, hdraft, hscan⟩ := DateTimeFormat.read?_standard hread hleap hwritten
    refine ⟨.dateTime ⟨DateTimeFormat.tokensOf DateTimeFormat.standard⟩, rfl, ?_⟩
    have htext := key _ text rfl hdraft
    rw [htext]
    exact ⟨hdraft, hscan⟩

theorem ScalarValue.mem_scalarTypes {type : String} {value : Json} (h : ScalarValue type value) :
    type ∈ scalarTypes ∧ value.isNull = false := by
  cases h with
  | integer htype _ => rcases htype with rfl | rfl <;> exact ⟨by decide, rfl⟩
  | _ => exact ⟨by decide, rfl⟩

theorem Schema.Holds.not_null {schema : Schema} {type : String} {array : Bool} {value : Json}
    (h : schema.Holds type array value) : value.isNull = false := by
  cases h with
  | scalar h => exact h.mem_scalarTypes.2
  | array _ => rfl
  | record _ _ _ _ _ _ => rfl

end ClauseTemplates
