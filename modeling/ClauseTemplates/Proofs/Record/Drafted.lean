import ClauseTemplates.Proofs.Drafting.Texts
import ClauseTemplates.Proofs.Record.Values

namespace ClauseTemplates

open Json Fragment

namespace Drafting

variable {schema : Schema} {bullet : Char} {context : DraftContext} {types : String → Prop}

section

variable {compound : List Char → List Node → Json → Option (List (List Char))} {margin : List Char}
  {scope : Json}

theorem textsAll?_append {ns ms : List Node} {as bs : List (List Char)}
    (h : textsAll? schema bullet context compound margin ns scope = some as)
    (h' : textsAll? schema bullet context compound margin ms scope = some bs) :
    textsAll? schema bullet context compound margin (ns ++ ms) scope = some (as ++ bs) := by
  induction ns generalizing as with
  | nil =>
    rw [textsAll?] at h
    cases h
    exact h'
  | cons n ns ih =>
    rw [textsAll?] at h
    obtain ⟨ts, hts, h⟩ := Option.bind_eq_some_iff.mp h
    obtain ⟨more, hmore, rfl⟩ := Option.map_eq_some_iff.mp h
    rw [List.cons_append, textsAll?, hts, Option.bind_some, ih hmore, Option.map_some,
      List.append_assoc]

/-- Nodes have texts that make a text together. -/
def Spelled (schema : Schema) (bullet : Char) (context : DraftContext)
    (compound : List Char → List Node → Json → Option (List (List Char))) (margin : List Char)
    (ns : List Node) (scope : Json) (w : List Char) : Prop :=
  ∃ ts, textsAll? schema bullet context compound margin ns scope = some ts ∧ ts.flatten = w

theorem Spelled.append {ns ms : List Node} {v w : List Char}
    (h : Spelled schema bullet context compound margin ns scope v)
    (h' : Spelled schema bullet context compound margin ms scope w) :
    Spelled schema bullet context compound margin (ns ++ ms) scope (v ++ w) := by
  obtain ⟨ts, hts, rfl⟩ := h
  obtain ⟨more, hmore, rfl⟩ := h'
  exact ⟨ts ++ more, textsAll?_append hts hmore, List.flatten_append⟩

theorem spelled_nil : Spelled schema bullet context compound margin [] scope [] := ⟨[], rfl, rfl⟩

theorem spelled_flatMap {f : α → List Node} {w : α → List Char} {as : List α}
    (h : ∀ a ∈ as, Spelled schema bullet context compound margin (f a) scope (w a)) :
    Spelled schema bullet context compound margin (as.flatMap f) scope (as.flatMap w) := by
  induction as with
  | nil => exact spelled_nil
  | cons a as ih =>
    obtain ⟨ha, has⟩ := List.forall_mem_cons.mp h
    exact ha.append (ih has)

theorem spelled_text (s : String) : Spelled schema bullet context compound margin [.text s] scope
    (Text.escaped s.toList) := by
  refine ⟨[Text.escaped s.toList], ?_, List.flatten_singleton⟩
  simp [textsAll?, Node.text, texts?, Markdown.leafText]

/-- The elements of an array are written with the separator between them. -/
theorem spelled_join {name : String} {type : Option String} {children : List Node} {items : List Json}
    {w : Json → List Char} (harray : array? scope name = some items)
    (h : ∀ item ∈ items, Spelled schema bullet context compound margin children item (w item)) :
    Spelled schema bullet context compound margin
      [.join name type Markup.defaultSeparator children] scope (itemsText (items.map w)) := by
  have hall : ∃ tss, (items.mapM fun item =>
        textsAll? schema bullet context compound margin children item) = some tss ∧
      tss.map List.flatten = items.map w := by
    clear harray
    induction items with
    | nil => exact ⟨[], rfl, rfl⟩
    | cons item items ih =>
      obtain ⟨⟨ts, hts, hw⟩, hitems⟩ := List.forall_mem_cons.mp h
      obtain ⟨tss, htss, hmap⟩ := ih hitems
      refine ⟨ts :: tss, ?_, ?_⟩
      · rw [List.mapM_cons, hts, htss]
        rfl
      · rw [List.map_cons, List.map_cons, hw, hmap]
  obtain ⟨tss, htss, hmap⟩ := hall
  refine ⟨joinedTexts Markup.defaultSeparator tss, ?_, ?_⟩
  · simp [textsAll?, texts?, harray, htss]
  · rw [← hmap]
    cases tss with
    | nil => rfl
    | cons ts tss =>
      rw [joinedTexts_flatten, List.map_cons, itemsText, List.flatMap_map]
      rfl

theorem spelled_optional {name : String} {type : Option String} {whenSome : List Node} {v : Json}
    {w : List Char} (hfield : field? scope name = some v)
    (h : Spelled schema bullet context compound margin whenSome v w) :
    Spelled schema bullet context compound margin [.optional name type whenSome []] scope w := by
  obtain ⟨ts, hts, hw⟩ := h
  refine ⟨ts, ?_, hw⟩
  rw [textsAll?, texts?, hfield]
  dsimp only
  rw [hts, Option.bind_some, textsAll?, Option.map_some, List.append_nil]

theorem spelled_absent {name : String} {type : Option String} {whenSome : List Node}
    (hfield : field? scope name = none) :
    Spelled schema bullet context compound margin [.optional name type whenSome []] scope [] := by
  refine ⟨[], ?_, rfl⟩
  rw [textsAll?, texts?, hfield]
  rfl

/-- A property is written behind its name, and not at all where it is absent. -/
theorem spelled_boundEntry {fields : Fields} {e : String × Property} (hthis : e.2.name ≠ thisName)
    (hrequired : e.2.optional = false → (Fields.get? e.2.name fields).isSome = true)
    (hvalue : ∀ v, Fields.get? e.2.name fields = some v → v.isNull = false ∧
      ∀ scope name, field? scope name = some v → Spelled schema bullet context compound margin
        (boundValue e.2.type e.2.array (Target.ofProperty schema e.2).decorators name) scope
        (schema.textOf e.2.type v)) :
    Spelled schema bullet context compound margin (boundEntry schema e) (.obj fields)
      (schema.entryText fields e) := by
  unfold boundEntry
  dsimp only
  cases hget : Fields.get? e.2.name fields with
  | none =>
    have hnone : field? (.obj fields) e.2.name = none := by
      simp [field?, hthis, Json.get?, hget]
    rw [Schema.entryText_none hget]
    cases hoptional : e.2.optional with
    | false =>
      have hpresent := hrequired hoptional
      rw [hget] at hpresent
      cases hpresent
    | true => exact spelled_absent hnone
  | some v =>
    obtain ⟨hnull, hspelled⟩ := hvalue v hget
    have hfield : field? (.obj fields) e.2.name = some v := by
      simp [field?, hthis, Json.get?, hget, hnull]
    rw [Schema.entryText_some hget]
    cases e.2.optional with
    | false => exact (spelled_text _).append (hspelled _ _ hfield)
    | true =>
      exact spelled_optional hfield ((spelled_text _).append (hspelled _ _ (field?_this hnull)))

end

/-- Every value is drafted to its text, with as much fuel as it is deep. -/
theorem spelled_value (hc : schema.Composite types) {type : String} {array : Bool} {value : Json}
    (h : schema.Holds type array value) (htype : types type ∨ type ∈ scalarTypes) {fuel : Nat}
    (hfuel : value.depth ≤ fuel) (margin : List Char) (decorators : List Decorator) (scope : Json)
    (name : String) (hfield : field? scope name = some value) :
    Spelled schema bullet context (compoundTexts? schema bullet context fuel) margin
      (boundValue type array decorators name) scope (schema.textOf type value) := by
  induction h generalizing fuel decorators scope name with
  | @scalar type value hscalar =>
    obtain ⟨program, hentry, hdraft, -⟩ := hscalar.reads schema
    refine ⟨[schema.textOf type value], ?_, List.flatten_singleton⟩
    simp [boundValue, textsAll?, texts?, variableTexts?, hfield, hentry, entryTexts?, hdraft,
      Except.toOption]
  | @array type items hitems ih =>
    have harray : array? scope name = some items := by
      rw [array?, hfield]
      rfl
    have hshown (item : Json) (hitem : item ∈ items) :
        Spelled schema bullet context (compoundTexts? schema bullet context fuel) margin
          (boundValue type false decorators thisName) item (schema.textOf type item) :=
      ih item hitem htype ((Json.depth_le_of_mem hitem).trans hfuel) decorators item thisName
        (field?_this (hitems item hitem).not_null)
    rw [Schema.textOf, Schema.itemTexts_eq]
    exact ((spelled_text "[").append (spelled_join harray hshown)).append (spelled_text "]")
  | @record type d fields hd hcompound hsorted hdeclared hrequired hvalues ih =>
    have hobject : (Json.obj fields).isObject = true := rfl
    obtain ⟨fuel, rfl⟩ : ∃ n, fuel = n + 1 := ⟨fuel - 1, by
      have hpos := Json.depth_pos_of_isObject hobject
      omega⟩
    have htypes : types type := by
      refine htype.resolve_right fun hmem => ?_
      have hscalar := ScalarType.ofName?_scalarType hmem
      rw [hcompound] at hscalar
      cases hscalar
    obtain ⟨d', hd'⟩ := hc type htypes
    obtain rfl : d' = d := Option.some.inj (hd'.declared.symm.trans hd)
    have hrecord : Spelled schema bullet context (compoundTexts? schema bullet context fuel) margin
        (boundEntries schema d'.entries) (.obj fields) (schema.textOf type (.obj fields)) := by
      rw [Schema.textOf_obj hd']
      refine spelled_flatMap fun e he => ?_
      have hp := mem_properties he
      refine spelled_boundEntry (hd'.named e.2 hp).1 (hrequired e.2 hp) fun v hget =>
        ⟨(hvalues e.2 hp v hget).not_null, fun scope name hfield => ?_⟩
      have hfield' : (Json.obj fields).get? e.2.name = some v := hget
      have hdepth : v.depth ≤ fuel :=
        Nat.le_of_lt_succ (Nat.lt_of_lt_of_le (Json.depth_lt_of_get? hfield') hfuel)
      exact ih e.2 hp v hget ((hd'.simple e.2 hp).type.imp_right And.left) hdepth _ scope name hfield
    obtain ⟨ts, hts, hw⟩ := hrecord
    refine ⟨ts, ?_, hw⟩
    have hentry := Entry.compile_composed hc hd'
    simp [boundValue, textsAll?, texts?, variableTexts?, hfield, hentry, entryTexts?, hobject,
      Except.toOption, compoundTexts?, hts]

end Drafting

end ClauseTemplates
