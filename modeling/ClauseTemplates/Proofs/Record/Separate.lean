import ClauseTemplates.Proofs.Grammar.Fails
import ClauseTemplates.Proofs.Markup.Escaped
import ClauseTemplates.Proofs.Markup.Normal
import ClauseTemplates.Proofs.Record.Recovered

namespace ClauseTemplates

open Json Scan Scanner Fragment Grammar

/-- A name without the characters that stand around names and values. -/
def IsWord (name : String) : Prop := ∀ c ∈ name.toList, c ≠ ' ' ∧ c ≠ ',' ∧ c ≠ ']'

namespace Fragment

variable {name other : String} {e : String × Property} {rest : List Char}

/-- A name as it stands in front of a value. -/
def nameText (name : String) : List Char := Text.escaped name.toList ++ [' ']

theorem label_eq (e : String × Property) :
    label e = Text.escaped e.1.toList ++ nameText e.2.name := by
  rw [label, nameText, String.toList_append, String.toList_append, Text.escaped_append,
    Text.escaped_append, List.append_assoc]
  rfl

theorem label_later (h : e.1 = Markup.defaultSeparator) :
    label e = separator ++ nameText e.2.name := by
  rw [label_eq, h]
  rfl

theorem label_first (h : e.1 = "") : label e = nameText e.2.name := by
  rw [label_eq, h]
  rfl

theorem not_mem_escaped {c : Char} (hc : c ≠ '\\') (h : c ∉ name.toList) :
    c ∉ Text.escaped name.toList := fun hmem => (Text.mem_escaped hmem).elim h hc

/-- A word ends at its blank. -/
theorem eq_of_nameText (h : IsWord name) (h' : IsWord other)
    (hstart : nameText name <+: nameText other ++ rest) : name = other := by
  have hword {name : String} (h : IsWord name) (rest : List Char) :
      (nameText name ++ rest).takeWhile (· != ' ') = Text.escaped name.toList := by
    have hblank : ' ' ∉ Text.escaped name.toList :=
      not_mem_escaped (by decide) fun hmem => (h _ hmem).1 rfl
    rw [nameText, List.append_assoc, List.takeWhile_append_of_pos]
    · simp
    · intro c hc
      exact bne_iff_ne.mpr fun heq => hblank (heq ▸ hc)
  obtain ⟨more, hmore⟩ := hstart
  have hescaped : Text.escaped name.toList = Text.escaped other.toList := by
    rw [← hword h more, hmore, hword h' rest]
  exact String.toList_injective (Text.escaped_injective hescaped)

/-- No word stands where a value ends. -/
theorem not_nameText_behind (h : IsWord name) (hrest : BehindValue rest) :
    ¬ nameText name <+: rest := by
  have hhead : ∃ c cs, nameText name = c :: cs ∧ c ≠ ',' ∧ c ≠ ']' := by
    unfold nameText
    cases hname : Text.escaped name.toList with
    | nil => exact ⟨' ', [], rfl, by decide, by decide⟩
    | cons c cs =>
      have hmem : c ∈ Text.escaped name.toList := hname ▸ List.mem_cons_self
      refine ⟨c, cs ++ [' '], rfl, ?_, ?_⟩
      · rintro rfl
        exact not_mem_escaped (by decide) (fun hmem => (h _ hmem).2.1 rfl) hmem
      · rintro rfl
        exact not_mem_escaped (by decide) (fun hmem => (h _ hmem).2.2 rfl) hmem
  obtain ⟨c, cs, hcs, hcomma, hbracket⟩ := hhead
  rintro ⟨more, rfl⟩
  rw [hcs] at hrest
  rcases hrest c rfl with h | h
  · exact hcomma h
  · exact hbracket h

end Fragment

/-- No value of a scalar type is read at the end of an array. -/
theorem Entry.scalar_fails (schema : Schema) {type : String} (h : type ∈ scalarTypes) :
    ∃ program, Entry.compile schema ⟨type, none⟩ = .ok (.scalar program) ∧
      ∀ context offset rest, read? (program.scanner context) ⟨offset, ']' :: rest⟩ = none := by
  simp only [scalarTypes, List.mem_cons, List.not_mem_nil, or_false] at h
  rcases h with rfl | rfl | rfl | rfl | rfl
  all_goals exact ⟨_, rfl, fun _ _ _ => rfl⟩

namespace Schema

section

variable (schema : Schema) (types : String → Prop)

/-- A property of this name can be the next text behind a record of a type that another record
shows. -/
inductive Follows : String → String → Prop
  | sibling {outer : String} {d : Declaration} {before between after : List (String × Property)}
      {e f : String × Property} (houter : types outer) (hd : schema.find? outer = some d)
      (hentries : d.entries = before ++ e :: (between ++ f :: after)) (hsingle : e.2.array = false)
      (hoptional : ∀ b ∈ between, b.2.optional = true) : Follows e.2.type f.2.name
  | inside {outer name : String} {d : Declaration} {before after : List (String × Property)}
      {e : String × Property} (houter : types outer) (hd : schema.find? outer = some d)
      (hentries : d.entries = before ++ e :: after) (hsingle : e.2.array = false)
      (hoptional : ∀ b ∈ after, b.2.optional = true) (h : Follows outer name) : Follows e.2.type name
  /-- The next element. -/
  | element {outer : String} {d d' : Declaration} {e first : String × Property}
      {rest : List (String × Property)} (houter : types outer) (hd : schema.find? outer = some d)
      (he : e ∈ d.entries) (harray : e.2.array = true) (hd' : schema.find? e.2.type = some d')
      (hfirst : d'.entries = first :: rest) : Follows e.2.type first.2.name

/-- No property that may be absent has the name of one that can stand at its place, and every element
of an array shows something. -/
structure Separate : Prop where
  words : ∀ type d, types type → schema.find? type = some d → ∀ p ∈ d.properties, IsWord p.name
  apart : ∀ type d, types type → schema.find? type = some d → ∀ e ∈ d.entries.tail,
    e.2.optional = true → ¬ schema.Follows types type e.2.name
  filled : ∀ type d, types type → schema.find? type = some d → ∀ p ∈ d.properties, p.array = true →
    ∀ d', types p.type → schema.find? p.type = some d' → ∃ q ∈ d'.properties, q.optional = false

end

variable {schema : Schema} {types stored : String → Prop} {type : String}

theorem Follows.mono (hstored : ∀ type, stored type → types type) {name : String}
    (h : schema.Follows stored type name) : schema.Follows types type name := by
  induction h with
  | sibling houter hd hentries hsingle hoptional =>
    exact .sibling (hstored _ houter) hd hentries hsingle hoptional
  | inside houter hd hentries hsingle hoptional _ ih =>
    exact .inside (hstored _ houter) hd hentries hsingle hoptional ih
  | element houter hd he harray hd' hfirst =>
    exact .element (hstored _ houter) hd he harray hd' hfirst

theorem Separate.mono (h : schema.Separate types) (hstored : ∀ type, stored type → types type) :
    schema.Separate stored where
  words type d htype := h.words type d (hstored type htype)
  apart type d htype hd e he hoptional hfollows :=
    h.apart type d (hstored type htype) hd e he hoptional (hfollows.mono hstored)
  filled type d htype hd p hp harray d' htype' :=
    h.filled type d (hstored type htype) hd p hp harray d' (hstored _ htype')

/-- The name in front of a text, if there is one, can follow a record of a type. -/
def Apart (schema : Schema) (types : String → Prop) (type : String) (after : List Char) : Prop :=
  ∀ name, IsWord name → separator ++ nameText name <+: after → schema.Follows types type name

theorem apart_of_separator {after : List Char} (h : ¬ separator <+: after) :
    schema.Apart types type after :=
  fun _ _ hstart => absurd ((List.prefix_append separator _).trans hstart) h

section

variable {fields : Fields} {es : List (String × Property)} {after : List Char} {name : String}

/-- The name in front of some properties is that of the first one that is there. -/
theorem name_of_entriesText (hleads : ∀ e ∈ es, e.1 = Markup.defaultSeparator)
    (hwords : ∀ e ∈ es, IsWord e.2.name) (hname : IsWord name)
    (h : separator ++ nameText name <+: schema.entriesText fields es ++ after) :
    (∃ between f more, es = between ++ f :: more ∧ f.2.name = name ∧
        ∀ b ∈ between, Fields.get? b.2.name fields = none) ∨
      (∀ e ∈ es, Fields.get? e.2.name fields = none) ∧ separator ++ nameText name <+: after := by
  induction es with
  | nil => exact Or.inr ⟨fun _ h => absurd h List.not_mem_nil, h⟩
  | cons e es ih =>
    obtain ⟨hlead, hleads⟩ := List.forall_mem_cons.mp hleads
    obtain ⟨hword, hwords⟩ := List.forall_mem_cons.mp hwords
    rw [entriesText_cons] at h
    cases hget : Fields.get? e.2.name fields with
    | none =>
      rw [entryText_none hget, List.nil_append] at h
      rcases ih hleads hwords h with ⟨between, f, more, rfl, hf, hnone⟩ | ⟨hnone, hafter⟩
      · exact Or.inl ⟨e :: between, f, more, rfl, hf, List.forall_mem_cons.mpr ⟨hget, hnone⟩⟩
      · exact Or.inr ⟨List.forall_mem_cons.mpr ⟨hget, hnone⟩, hafter⟩
    | some v =>
      rw [entryText_some hget, label_later hlead, List.append_assoc, List.append_assoc,
        List.append_assoc, List.prefix_append_right_inj] at h
      exact Or.inl ⟨[], e, es, rfl, (eq_of_nameText hname hword h).symm, nofun⟩

end

section

variable {context : ScanContext} {records : String → Scanner Char Captured} {kind : TemplateKind}
  {settings : Settings} {d : Declaration} {es : List (String × Property)} {rest : List Char}

/-- No property is read at the end of an array. -/
theorem fails_ofLabelled {e : String × Property} (hlead : e.1 = "" ∨ e.1 = Markup.defaultSeparator)
    (hword : IsWord e.2.name) (name : String) (rest : List Char) :
    Fails context records (ofLabelled schema e name) (']' :: rest) := by
  refine fails_text (fun hstart => ?_) _
  rcases hlead with hlead | hlead
  · rw [label_first hlead] at hstart
    refine not_nameText_behind hword ?_ hstart
    rintro c ⟨⟩
    exact Or.inr rfl
  · rw [label_later hlead] at hstart
    obtain ⟨more, hmore⟩ := hstart
    cases hmore

/-- Nothing is read at the end of an array where some property has to be there. -/
theorem fails_boundEntries (hleads : ∀ e ∈ es, e.1 = "" ∨ e.1 = Markup.defaultSeparator)
    (hwords : ∀ e ∈ es, IsWord e.2.name) (hrequired : ∃ e ∈ es, e.2.optional = false)
    (rest : List Char) :
    Fails context records (ofInlines schema kind settings [] (boundEntries schema es))
      (']' :: rest) := by
  intro offset
  induction es with
  | nil =>
    obtain ⟨e, he, -⟩ := hrequired
    cases he
  | cons e es ih =>
    obtain ⟨hlead, hleads⟩ := List.forall_mem_cons.mp hleads
    obtain ⟨hword, hwords⟩ := List.forall_mem_cons.mp hwords
    rw [boundEntries, List.flatMap_cons, read?_ofInlines_append]
    cases hoptional : e.2.optional with
    | false =>
      rw [read?_required hoptional, fails_ofLabelled hlead hword]
      rfl
    | true =>
      have hlater : ∃ e ∈ es, e.2.optional = false := by
        obtain ⟨e', he', hrequired⟩ := hrequired
        rcases List.mem_cons.mp he' with rfl | he'
        · rw [hoptional] at hrequired
          cases hrequired
        · exact ⟨e', he', hrequired⟩
      have hnone := ih hleads hwords hlater
      rw [boundEntries] at hnone
      rw [read?_optional hoptional, fails_ofLabelled hlead hword, Option.elim_none, Option.bind_some,
        hnone]
      rfl

end

/-- Arrays of a type are shown. -/
structure Listed (schema : Schema) (types : String → Prop) (type : String) : Prop where
  first : ∀ d first rest, schema.find? type = some d → d.entries = first :: rest →
    schema.Follows types type first.2.name
  filled : ∀ d, types type → schema.find? type = some d → ∃ p ∈ d.properties, p.optional = false

section

variable {context : ScanContext} {records : String → Scanner Char Captured} {kind : TemplateKind}
  {settings : Settings} {fields : Fields} {d : Declaration}

/-- No element is read at the end of an array. -/
theorem fails_ofShown (hs : schema.Separate types) (hc : schema.Composite types)
    (hserved : ∀ type d, types type → schema.find? type = some d →
      Served schema kind settings context records type d)
    (hlisted : schema.Listed types type) (htype : types type ∨ type ∈ scalarTypes) (rest : List Char) :
    Fails context records (ofShown schema type false thisName) (']' :: rest) := by
  intro offset
  rw [read?_ofShown, Option.map_eq_none_iff]
  rcases htype with htype | hscalar
  · obtain ⟨d, hd⟩ := hc type htype
    obtain ⟨p, hp, hrequired⟩ := hlisted.filled d htype hd.declared
    rw [← map_entries fun p hp => (hd.named p hp).2] at hp
    obtain ⟨e, he, rfl⟩ := List.mem_map.mp hp
    have hwords (e : String × Property) (he : e ∈ d.entries) : IsWord e.2.name :=
      hs.words type d htype hd.declared e.2 (mem_properties he)
    have hnone : Fails context records
        (ofInlines schema kind settings [] (boundEntries schema d.entries)) (']' :: rest) :=
      fails_boundEntries (lead_entries d) hwords ⟨e, he, hrequired⟩ rest
    rw [(hserved type d htype hd.declared).read? hc hd, hnone]
    rfl
  · obtain ⟨program, hentry, hnone⟩ := Entry.scalar_fails schema hscalar
    have hvalue : ofType schema type = .scalar program := by
      simp [ofType, ofValue, hentry]
    rw [hvalue, read?_scalar, hnone]
    rfl

/-- Behind an element stands the next one, or the end of the array. -/
theorem apart_behind (hs : schema.Separate types) (hc : schema.Composite types) (htype : types type)
    (hlisted : schema.Listed types type) {items : List Json}
    (hitems : ∀ item ∈ items, schema.Holds type false item) (after : List Char) :
    schema.Apart types type (behind separator (items.map (schema.textOf type)) (']' :: after)) := by
  cases items with
  | nil =>
    refine apart_of_separator fun hstart => ?_
    obtain ⟨more, hmore⟩ := hstart
    cases hmore
  | cons item items =>
    intro name hname hstart
    rw [List.map_cons, behind_cons, List.prefix_append_right_inj] at hstart
    have hrest := behindValue_behind (items.map (schema.textOf type)) after
    obtain ⟨d, hd⟩ := hc type htype
    cases hitems item List.mem_cons_self with
    | scalar hscalar =>
      have hsome := ScalarType.ofName?_scalarType hscalar.mem_scalarTypes.1
      rw [hd.compound] at hsome
      cases hsome
    | @record _ _ fields =>
      rw [textOf_obj hd] at hstart
      cases hentries : d.entries with
      | nil =>
        rw [hentries] at hstart
        exact absurd hstart (not_nameText_behind hname hrest)
      | cons first more =>
        have hleads := leads_entries d
        have hwords (e : String × Property) (he : e ∈ d.entries) : IsWord e.2.name :=
          hs.words type d htype hd.declared e.2 (mem_properties he)
        rw [hentries] at hstart hleads hwords
        rw [entriesText_cons, List.append_assoc] at hstart
        cases hget : Fields.get? first.2.name fields with
        | none =>
          rw [entryText_none hget] at hstart
          exact absurd hstart (not_nameText_behind hname (behindValue_entriesText hleads hrest))
        | some v =>
          rw [entryText_some hget, label_first (lead_first hentries), List.append_assoc] at hstart
          rw [eq_of_nameText hname (hwords first List.mem_cons_self) hstart]
          exact hlisted.first d first more hd.declared hentries

theorem clearItems_of_separate (hs : schema.Separate types) (hc : schema.Composite types)
    (hlisted : schema.Listed types type) {items : List Json}
    (hitems : ∀ item ∈ items, schema.Holds type false item)
    (hclear : ∀ item ∈ items, ∀ offset after, BehindValue after →
      (types type → schema.Apart types type after) →
      Clear schema context records type false item offset after) (offset : Nat) (after : List Char) :
    ClearItems schema context records type items offset after := by
  induction items generalizing offset with
  | nil => exact .nil
  | cons item items ih =>
    obtain ⟨-, hlater⟩ := List.forall_mem_cons.mp hitems
    obtain ⟨hitem, hclear⟩ := List.forall_mem_cons.mp hclear
    exact .cons (hitem _ _ (behindValue_behind _ after) fun htype =>
      apart_behind hs hc htype hlisted hlater after) (ih hlater hclear _)

/-- The properties of a record are clear if nothing behind the record has the name of an absent one. -/
theorem clearEntries_of_separate (hs : schema.Separate types) (hd : schema.Composed types type d)
    (htype : types type)
    (hrequired : ∀ p ∈ d.properties, p.optional = false → (Fields.get? p.name fields).isSome = true)
    (hclear : ∀ p ∈ d.properties, ∀ v, Fields.get? p.name fields = some v → ∀ offset after,
      BehindValue after → (p.array = false → types p.type → schema.Apart types p.type after) →
      (p.array = true → schema.Listed types p.type) →
      Clear schema context records p.type p.array v offset after) {after : List Char}
    (hbehind : BehindValue after) (hafter : schema.Apart types type after)
    {before es : List (String × Property)} (hentries : d.entries = before ++ es) (offset : Nat) :
    ClearEntries schema context records fields es offset after := by
  induction es generalizing before offset with
  | nil => exact .nil
  | cons e es ih =>
    have hmem (f : String × Property) (hf : f ∈ e :: es) : f.2 ∈ d.properties :=
      mem_properties (hentries ▸ List.mem_append_right before hf)
    have hword (f : String × Property) (hf : f ∈ e :: es) : IsWord f.2.name :=
      hs.words type d htype hd.declared f.2 (hmem f hf)
    have habsent (f : String × Property) (hf : f ∈ e :: es)
        (hget : Fields.get? f.2.name fields = none) : f.2.optional = true := by
      cases hoptional : f.2.optional with
      | true => rfl
      | false =>
        have hpresent := hrequired f.2 (hmem f hf) hoptional
        rw [hget] at hpresent
        cases hpresent
    have hleads : ∀ f ∈ es, f.1 = Markup.defaultSeparator := by
      intro f hf
      refine leads_entries d f ?_
      rw [hentries]
      cases before with
      | nil => exact hf
      | cons b before => exact List.mem_append_right before (List.mem_cons_of_mem e hf)
    have hrest : BehindValue (schema.entriesText fields es ++ after) :=
      behindValue_entriesText hleads hbehind
    have hlater (offset : Nat) : ClearEntries schema context records fields es offset after :=
      ih (List.append_cons before e es ▸ hentries) offset
    have hnext {name : String} (hname : IsWord name)
        (hstart : separator ++ nameText name <+: schema.entriesText fields es ++ after) :=
      name_of_entriesText hleads (fun f hf => hword f (List.mem_cons_of_mem e hf)) hname hstart
    cases hget : Fields.get? e.2.name fields with
    | none =>
      refine .absent hget (fails_text (fun hstart => ?_) _ offset) (hlater offset)
      have hoptional := habsent e List.mem_cons_self hget
      have hname := hword e List.mem_cons_self
      cases before with
      | nil =>
        rw [label_first (lead_first hentries)] at hstart
        exact not_nameText_behind hname hrest hstart
      | cons b before =>
        have htail : e ∈ d.entries.tail := by
          rw [hentries]
          exact List.mem_append_right before List.mem_cons_self
        rw [label_later (leads_entries d e htail)] at hstart
        rcases hnext hname hstart with ⟨between, f, more, rfl, hf, -⟩ | ⟨-, hstart⟩
        · have hdistinct : (d.entries.map (·.2.name)).Nodup := by
            rw [names_entries hd]
            exact hd.distinct
          rw [hentries, List.map_append] at hdistinct
          have hlast := (List.nodup_append.mp hdistinct).2.1
          have hf' : f ∈ between ++ f :: more := List.mem_append_right between List.mem_cons_self
          exact (List.nodup_cons.mp hlast).1 (List.mem_map.mpr ⟨f, hf', hf⟩)
        · exact hs.apart type d htype hd.declared e htail hoptional (hafter e.2.name hname hstart)
    | some v =>
      refine .present hget (hclear e.2 (hmem e List.mem_cons_self) v hget _ _ hrest
        (fun hsingle hother name hname hstart => ?_) fun harray => ⟨?_, ?_⟩) (hlater _)
      · rcases hnext hname hstart with ⟨between, f, more, rfl, rfl, hnone⟩ | ⟨hnone, hstart⟩
        · refine .sibling htype hd.declared hentries hsingle fun b hb => habsent b ?_ (hnone b hb)
          exact List.mem_cons_of_mem e (List.mem_append_left _ hb)
        · exact .inside htype hd.declared hentries hsingle
            (fun b hb => habsent b (List.mem_cons_of_mem e hb) (hnone b hb))
            (hafter name hname hstart)
      · intro d' first rest hd' hfirst
        exact .element htype hd.declared (hentries ▸ List.mem_append_right before List.mem_cons_self)
          harray hd' hfirst
      · exact hs.filled type d htype hd.declared e.2 (hmem e List.mem_cons_self) harray

/-- In a separate schema the text of every value is clear. -/
theorem clear_of_separate (hs : schema.Separate types) (hc : schema.Composite types)
    (hserved : ∀ type d, types type → schema.find? type = some d →
      Served schema kind settings context records type d) {array : Bool} {value : Json}
    (h : schema.Holds type array value) (htype : types type ∨ type ∈ scalarTypes) (offset : Nat)
    (after : List Char) (hbehind : BehindValue after)
    (hsingle : array = false → types type → schema.Apart types type after)
    (hlisted : array = true → schema.Listed types type) :
    Clear schema context records type array value offset after := by
  induction h generalizing offset after with
  | scalar hscalar => exact .scalar hscalar
  | @array type items hitems ih =>
    have hlisted := hlisted rfl
    have hitem (item : Json) (hitem : item ∈ items) (offset : Nat) (after : List Char)
        (hbehind : BehindValue after) (happart : types type → schema.Apart types type after) :=
      ih item hitem htype offset after hbehind (fun _ => happart) nofun
    cases items with
    | nil => exact .empty (fails_ofShown hs hc hserved hlisted htype after (offset + 1))
    | cons item items =>
      obtain ⟨-, hlater⟩ := List.forall_mem_cons.mp hitems
      obtain ⟨hfirst, hothers⟩ := List.forall_mem_cons.mp hitem
      exact .items (hfirst _ _ (behindValue_behind _ after) fun htype =>
        apart_behind hs hc htype hlisted hlater after)
        (clearItems_of_separate hs hc hlisted hlater hothers _ after)
  | @record type d fields hd hcompound hsorted hdeclared hrequired hvalues ih =>
    have htypes : types type := by
      refine htype.resolve_right fun hmem => ?_
      have hscalar := ScalarType.ofName?_scalarType hmem
      rw [hcompound] at hscalar
      cases hscalar
    obtain ⟨d', hd'⟩ := hc type htypes
    obtain rfl : d' = d := Option.some.inj (hd'.declared.symm.trans hd)
    refine .record hd (clearEntries_of_separate hs hd' htypes hrequired
      (fun p hp v hget offset after hbehind hsingle hlisted => ?_) hbehind (hsingle rfl htypes)
      (List.nil_append _).symm offset)
    exact ih p hp v hget ((hd'.simple p hp).type.imp_right And.left) offset after hbehind hsingle
      hlisted

end

end Schema

open Showing in
/-- In a separate schema every value of a record type is read back from its draft, with the classes
filled in: no absent property of a record is taken from what stands behind the record. -/
theorem Template.parse_separate {schema : Schema} {types : String → Prop}
    (hs : schema.Separate types) (hc : schema.Composite types) {type name : String} {d : Declaration}
    {p : Property} (h : schema.HoldsOne types type name d p) (kind : TemplateKind) {table : Table}
    (hf : table.Faithful) (hschema : table.schema = schema) (context : ScanContext) :
    ∃ t parser, Template.ofNodes schema kind type (nodes name) = .ok t ∧
      (t.parser context table).1 = .ok parser ∧
      ∀ data value, data.get? name = some value → schema.Holds p.type false value →
        ∀ settings s, Drafting.Ready schema settings s → ∀ now bullet n, ∃ doc s' record,
          (t.draft data now).run s = (.ok doc, s') ∧
          parser.parse (Markdown.render bullet [doc]) n = .ok record ∧
          record.get? name = some (schema.classed p.type value) := by
  subst hschema
  obtain ⟨parser, hparser⟩ := parser_template hf hc h.simple kind type name context
  obtain ⟨stored, hstored, hcomposite, htype, hserved⟩ := served_template hf hc h.simple hparser
  refine ⟨_, parser, ofNodes_eq hc h kind, hparser,
    fun data value hdata hvalue settings s hready now bullet n => ?_⟩
  have hbehind : BehindValue [] := by
    rintro c ⟨⟩
  have hapart : table.schema.Apart stored p.type [] :=
    Schema.apart_of_separator fun hstart => absurd (List.prefix_nil.mp hstart) (by decide)
  have hclear := Schema.clear_of_separate (hs.mono hstored) hcomposite hserved hvalue htype 0 []
    hbehind (fun _ _ => hapart) nofun
  obtain ⟨doc, s', hrun, hiff⟩ := parse_draft_iff hf hc h hparser hdata hvalue hready now bullet
  obtain ⟨record, hparse, hget⟩ := (hiff n).mpr hclear
  exact ⟨doc, s', record, hrun, hparse, hget⟩

namespace Parcel

theorem entries_remarked {type : String} {d : Declaration} (htype : types type)
    (hd : (schema "remark").find? type = some d) :
    type = "Parcel" ∧ d.entries = [("", sender), (Markup.defaultSeparator, optional "note")] ∨
      type = "Person" ∧
        d.entries = [("", .plain "name" "String"), (Markup.defaultSeparator, optional "remark")] := by
  rcases htype with rfl | rfl
  · cases hd
    exact Or.inl ⟨rfl, rfl⟩
  · cases hd
    exact Or.inr ⟨rfl, rfl⟩

theorem single_remarked {type : String} {d : Declaration} (htype : types type)
    (hd : (schema "remark").find? type = some d) : ∀ p ∈ d.properties, p.array = false := by
  rcases htype with rfl | rfl
  · cases hd
    decide
  · cases hd
    decide

/-- Behind a sender stands the note of the parcel, and behind a parcel nothing. -/
theorem follows_remarked {type name : String} (h : (schema "remark").Follows types type name) :
    type = "Person" ∧ name = "note" ∨ type = "String" := by
  induction h with
  | @sibling outer d before between after e f houter hd hentries =>
    have hpair : ∃ first second, d.entries = [first, second] := by
      rcases entries_remarked houter hd with ⟨-, heq⟩ | ⟨-, heq⟩ <;> exact ⟨_, _, heq⟩
    obtain ⟨first, second, hpair⟩ := hpair
    obtain ⟨rfl, rfl, rfl⟩ : before = [] ∧ between = [] ∧ after = [] := by
      have hlength := congrArg List.length (hpair.symm.trans hentries)
      simp only [List.length_append, List.length_cons, List.length_nil] at hlength
      simp only [← List.length_eq_zero_iff]
      omega
    rcases entries_remarked houter hd with ⟨-, heq⟩ | ⟨-, heq⟩
    · cases hentries.symm.trans heq
      exact Or.inl ⟨rfl, rfl⟩
    · cases hentries.symm.trans heq
      exact Or.inr rfl
  | @inside outer name d before after e houter hd hentries hsingle hoptional h ih =>
    have hmem : e ∈ d.entries := hentries ▸ List.mem_append_right before List.mem_cons_self
    rcases entries_remarked houter hd with ⟨rfl, -⟩ | ⟨-, heq⟩
    · rcases ih with ⟨hparcel, -⟩ | hparcel
      · exact absurd hparcel (by decide)
      · exact absurd hparcel (by decide)
    · rw [heq] at hmem
      simp only [List.mem_cons, List.not_mem_nil, or_false] at hmem
      rcases hmem with rfl | rfl
      · exact Or.inr rfl
      · exact Or.inr rfl
  | @element outer d d' e first rest houter hd he harray =>
    have hsingle := single_remarked houter hd e.2 (Fragment.mem_properties he)
    rw [harray] at hsingle
    cases hsingle

theorem separate_remarked : (schema "remark").Separate types where
  words type d htype hd := by
    have hwords : ∀ p ∈ [sender, optional "note", .plain "name" "String", optional "remark"],
        IsWord p.name := by
      simp [IsWord, sender, optional, Property.plain]
    intro p hp
    rcases htype with rfl | rfl
    · cases hd
      exact hwords p (List.mem_append_left [_, _] hp)
    · cases hd
      exact hwords p (List.mem_append_right [_, _] hp)
  apart type d htype hd e he _ hfollows := by
    rcases entries_remarked htype hd with ⟨rfl, heq⟩ | ⟨rfl, heq⟩
    · rcases follows_remarked hfollows with ⟨hparcel, -⟩ | hparcel
      · exact absurd hparcel (by decide)
      · exact absurd hparcel (by decide)
    · rw [heq] at he
      obtain rfl := List.mem_singleton.mp he
      rcases follows_remarked hfollows with ⟨-, hname⟩ | hperson
      · exact absurd hname (by decide)
      · exact absurd hperson (by decide)
  filled type d htype hd p hp harray := by
    have hsingle := single_remarked htype hd p hp
    rw [harray] at hsingle
    cases hsingle

/-- Where the texts of parcels and senders have different names, all parcels are read back. -/
theorem parse_separate_remarked :
    (schema "remark").Separate types ∧ (schema "remark").Composite types ∧
    (schema "remark").HoldsOne types "Delivery" "parcel" delivery parcel ∧
    (Table.empty (schema "remark") .standard).Faithful ∧
    ∃ t parser, Template.ofNodes (schema "remark") .clause "Delivery" (Showing.nodes "parcel") = .ok t ∧
      (t.parser context (Table.empty (schema "remark") .standard)).1 = .ok parser ∧
      ∀ data value, data.get? "parcel" = some value → (schema "remark").Holds "Parcel" false value →
        ∀ settings s, Drafting.Ready (schema "remark") settings s → ∀ now bullet n,
          ∃ doc s' record, (t.draft data now).run s = (.ok doc, s') ∧
            parser.parse (Markdown.render bullet [doc]) n = .ok record ∧
            record.get? "parcel" = some ((schema "remark").classed "Parcel" value) := by
  have hc := composite (Or.inr rfl)
  have hf := Table.faithful_empty (schema "remark") .standard
  exact ⟨separate_remarked, hc, holdsOne "remark", hf,
    Template.parse_separate separate_remarked hc (holdsOne "remark") .clause hf rfl context⟩

end Parcel

end ClauseTemplates
