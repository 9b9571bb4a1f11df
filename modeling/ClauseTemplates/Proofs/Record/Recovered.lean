import ClauseTemplates.Proofs.Parsing.Records
import ClauseTemplates.Proofs.Record.Drafted
import ClauseTemplates.Proofs.Record.Entries

namespace ClauseTemplates

open Json Scan Scanner Fragment Captured Folding Drafting Markdown

/-- A property of a record type that holds one value: a scalar or a record of one of some types. -/
structure Schema.HoldsOne (schema : Schema) (types : String → Prop) (type name : String)
    (d : Declaration) (p : Property) : Prop where
  declared : schema.find? type = some d
  record : d.isEnum = false
  property : d.property? name = some p
  single : p.array = false
  simple : schema.Simple types p
  named : name ≠ thisName
  visible : name ≠ "$class"

namespace Showing

variable {schema : Schema} {types : String → Prop} {type name : String} {d : Declaration} {p : Property}

/-- A template of one variable. -/
def nodes (name : String) : List Node := [.markup .paragraph [.variable (.unbound name none)]]

/-- The same with the types filled in. -/
def template (schema : Schema) (kind : TemplateKind) (type : String) (p : Property) (name : String) :
    Template :=
  ⟨kind, type, [.markup .paragraph
    (boundValue p.type false (Target.ofProperty schema p).decorators name)]⟩

theorem ofNodes_eq (hc : schema.Composite types) (h : schema.HoldsOne types type name d p)
    (kind : TemplateKind) :
    Template.ofNodes schema kind type (nodes name) = .ok (template schema kind type p name) := by
  have hrecord : schema.isRecord type = true := by
    simp [Schema.isRecord, h.declared, h.record]
  have hresolve : Binding.resolve schema (some (Target.ofType schema type)) name =
      .ok (Target.ofProperty schema p) := by
    simp [Binding.resolve, h.named, Target.ofType, h.declared, h.property]
  obtain ⟨henum, hknown⟩ := Binding.knows_simple hc h.simple
  have hvariable := Binding.bindVariable_plain hresolve h.single h.simple.value h.simple.unformatted
    henum hknown
  rw [Template.ofNodes, Binding.bindRecord, if_pos hrecord]
  simp only [nodes, Binding.bindNodes, Binding.bindNode, hvariable, bind, Except.bind, pure,
    Except.pure]
  rfl

theorem grammar_eq (schema : Schema) (kind : TemplateKind) (settings : Settings) (type : String)
    (p : Property) (name : String) : (template schema kind type p name).grammar schema settings =
      .seq (Grammar.ofShown schema p.type false name) .nothing := rfl

/-- The types that a parser stores, of some that make a composite schema, make one as well. -/
theorem composite_stored (hc : schema.Composite types) {stored : String → Prop}
    (hkeys : ∀ type, stored type → ∀ children,
      Entry.compile schema ⟨type, none⟩ = .ok (.compound type children) →
      ∀ key ∈ Node.keysAll children, ∀ other members,
        Entry.compile schema key = .ok (.compound other members) → stored other) :
    schema.Composite fun type => types type ∧ stored type := by
  rintro type ⟨htype, hstored⟩
  obtain ⟨d, hd⟩ := hc type htype
  refine ⟨d, { hd with simple := fun p hp => { hd.simple p hp with type := ?_ } }⟩
  refine (hd.simple p hp).type.imp_left fun hother => ⟨hother, ?_⟩
  obtain ⟨d', hd'⟩ := hc p.type hother
  rw [← map_entries fun p hp => (hd.named p hp).2] at hp
  obtain ⟨e, he, rfl⟩ := List.mem_map.mp hp
  refine hkeys type hstored _ (Entry.compile_composed hc hd) ⟨e.2.type, none⟩ ?_ _ _
    (Entry.compile_composed hc hd')
  rw [keysAll_boundEntries]
  exact List.mem_map.mpr ⟨e, he, rfl⟩

/-- The template has a parser. -/
theorem parser_template {table : Table} (hf : table.Faithful) (hc : table.schema.Composite types)
    (hp : table.schema.Simple types p) (kind : TemplateKind) (type name : String)
    (context : ScanContext) :
    ∃ parser, ((template table.schema kind type p name).parser context table).1 = .ok parser := by
  have hrequested {q : Property} (hq : table.schema.Simple types q) :
      (Compiling.succeeds table.schema types).keys ⟨q.type, none⟩ := by
    rcases hq.type with htype | ⟨hscalar, -⟩
    · obtain ⟨d, hd⟩ := hc q.type htype
      refine ⟨_, Entry.compile_composed hc hd, fun other children heq => ?_⟩
      cases heq
      exact htype
    · obtain ⟨program, hprogram⟩ := Entry.compile_scalarType table.schema hscalar
      exact ⟨_, hprogram, nofun⟩
  have hamong (other : String) (children : List Node) (hother : types other)
      (hentry : Entry.compile table.schema ⟨other, none⟩ = .ok (.compound other children)) :
      ∀ key ∈ Node.keysAll children, (Compiling.succeeds table.schema types).keys key := by
    obtain ⟨d, hd⟩ := hc other hother
    rw [Entry.compile_composed hc hd] at hentry
    cases hentry
    intro key hkey
    rw [keysAll_boundEntries] at hkey
    obtain ⟨e, he, rfl⟩ := List.mem_map.mp hkey
    exact hrequested (hd.simple e.2 (mem_properties he))
  refine Template.parser_of_entries context hf hamong ⟨⟨trivial, rfl, trivial⟩, trivial⟩
    fun key hkey => ?_
  obtain rfl := List.mem_singleton.mp hkey
  exact hrequested hp

/-- The draft is the text of the value. -/
theorem text?_eq (hc : schema.Composite types) (hp : schema.Simple types p) (hname : name ≠ thisName)
    {data value : Json} (hdata : data.get? name = some value) (hvalue : schema.Holds p.type false value)
    (kind : TemplateKind) (type : String) (bullet : Char) (now : Instant) :
    (template schema kind type p name).text? schema bullet data now =
      some (schema.textOf p.type value) := by
  have hobject : data.isObject = true := by
    cases data with
    | obj fields => rfl
    | _ => cases hdata
  have hfield : field? data name = some value := by
    simp [field?, hname, hdata, hvalue.not_null]
  have hfuel : value.depth ≤ levels schema data :=
    (Nat.le_of_lt (Json.depth_lt_of_get? hdata)).trans (Nat.le_add_right _ _)
  have hspelled : Spelled schema bullet ⟨data, now, kind⟩
      (compoundTexts? schema bullet ⟨data, now, kind⟩ (levels schema data)) []
      (boundValue p.type false (Target.ofProperty schema p).decorators name) data
      (schema.textOf p.type value) :=
    spelled_value hc hvalue (hp.type.imp_right And.left) hfuel [] _ data name hfield
  obtain ⟨ts, hts, hw⟩ := hspelled
  rw [Template.text?, if_pos hobject]
  simp only [template, textsAll?]
  rw [texts?]
  simp only [innerMargin]
  rw [hts]
  simp [frameText, blockText, laterText, hw]

/-- The template of one variable reads back what stands under its name. -/
theorem parse_template_eq_ok {table : Table} (hf : table.Faithful) {kind : TemplateKind}
    {context : ScanContext} {parser : TemplateParser}
    (hparser : ((template table.schema kind type p name).parser context table).1 = .ok parser)
    (hnamed : name ≠ thisName) (hvisible : name ≠ "$class") (text : String) (n : Nat) (w : Json) :
    (∃ record, parser.parse text n = .ok record ∧ record.get? name = some w) ↔
      ∃ c start next m, read? ((Grammar.ofShown table.schema p.type false name).scanner parser.context
          parser.record) (Cursor.start text.toList) = some ([.mk name c start], next) ∧
        Text.allBlank next.rest = true ∧ (fold text.toList c).run n = .ok (w, m) := by
  have hunknown : Fields.get? name [("$class", .str type)] = none := by
    rw [Fields.get?_cons, if_neg hvisible]
    rfl
  have hadded (v : Json) :
      Fields.get? name (Fields.insertNew name v [("$class", .str type)]) = some v := by
    rw [Fields.get?_insertNew, if_pos rfl, hunknown]
    rfl
  constructor
  · rintro ⟨record, hparse, hget⟩
    obtain ⟨slots, next, fields, k, hread, hblanks, hfields, rfl⟩ :=
      (Template.parse_eq_ok hf hparser).mp hparse
    have hshown : read? ((Grammar.ofShown table.schema p.type false name).scanner parser.context
        parser.record) (Cursor.start text.toList) = some (slots, next) :=
      Grammar.read?_last_some hread
    obtain ⟨c, start, rfl⟩ := Schema.slot_of_ofShown hshown
    obtain ⟨v, m, hv, -, hrest⟩ := (run_foldSlots_cons hnamed).mp hfields
    have hfound : some v = some w :=
      (get?_identified_of_some (foldSlots_keeps hrest (hadded v))).symm.trans hget
    obtain rfl := Option.some.inj hfound
    exact ⟨c, start, next, m, hshown, hblanks, hv⟩
  · rintro ⟨c, start, next, m, hshown, hblanks, hfold⟩
    have hread : read? (((template table.schema kind type p name).grammar table.schema
        table.settings).scanner parser.context parser.record) (Cursor.start text.toList) =
          some ([.mk name c start], next) :=
      Grammar.read?_seq_some hshown (Grammar.read?_nothing next)
    have hslots : (foldSlots text.toList [("$class", .str type)] [.mk name c start]).run n =
        .ok (Fields.insertNew name w [("$class", .str type)], m) := by
      refine (run_foldSlots_cons hnamed).mpr ⟨w, m, hfold, fun first hfirst => ?_, rfl⟩
      rw [hunknown] at hfirst
      cases hfirst
    refine ⟨_, (Template.parse_eq_ok hf hparser).mpr
      ⟨_, next, _, m, hread, hblanks, hslots, rfl⟩, get?_identified_of_some (hadded w)⟩

/-- The parser stores the template of each type that it reads records of. -/
theorem served_template {table : Table} (hf : table.Faithful) (hc : table.schema.Composite types)
    (hp : table.schema.Simple types p) {kind : TemplateKind} {context : ScanContext}
    {parser : TemplateParser}
    (hparser : ((template table.schema kind type p name).parser context table).1 = .ok parser) :
    ∃ stored : String → Prop, (∀ type, stored type → types type) ∧ table.schema.Composite stored ∧
      (stored p.type ∨ p.type ∈ scalarTypes) ∧
      ∀ type d, stored type → table.schema.find? type = some d →
        Schema.Served table.schema kind table.settings parser.context parser.record type d := by
  obtain ⟨hbody, hstored⟩ := Template.parser_keeps hf hparser
  have hguarded := Template.parser_guarded hf hparser
  have hcomposite : table.schema.Composite
      fun type => types type ∧ type ∈ parser.compounds.map (·.1) := by
    refine composite_stored hc fun type htype children hentry key hkey other members hother => ?_
    obtain ⟨children', hentry', -, hkeys⟩ := hstored type htype
    cases hentry.symm.trans hentry'
    exact hkeys key hkey other members hother
  refine ⟨_, fun type htype => htype.1, hcomposite, ?_, fun type d htype hfound c => ?_⟩
  · rcases hp.type with htype | hscalar
    · obtain ⟨d, hd⟩ := hc p.type htype
      exact Or.inl ⟨htype, hbody ⟨p.type, none⟩ List.mem_cons_self _ _ (Entry.compile_composed hc hd)⟩
    · exact Or.inr hscalar.1
  · obtain ⟨d', hd⟩ := hcomposite type htype
    obtain rfl : d' = d := Option.some.inj (hd.declared.symm.trans hfound)
    obtain ⟨children, hentry, hlookup, -⟩ := hstored type htype.2
    rw [Entry.compile_composed hcomposite hd] at hentry
    cases hentry
    exact TemplateParser.read?_record hguarded hlookup c

/-- The draft of a value is read back exactly where the text of the value is clear. -/
theorem parse_draft_iff {table : Table} (hf : table.Faithful) (hc : table.schema.Composite types)
    (h : table.schema.HoldsOne types type name d p) {kind : TemplateKind} {context : ScanContext}
    {parser : TemplateParser}
    (hparser : ((template table.schema kind type p name).parser context table).1 = .ok parser)
    {data value : Json} (hdata : data.get? name = some value)
    (hvalue : table.schema.Holds p.type false value) {settings : Settings} {s : DraftState}
    (hs : Ready table.schema settings s) (now : Instant) (bullet : Char) :
    ∃ doc s', ((template table.schema kind type p name).draft data now).run s = (.ok doc, s') ∧
      ∀ n, (∃ record, parser.parse (render bullet [doc]) n = .ok record ∧
          record.get? name = some (table.schema.classed p.type value)) ↔
        table.schema.Clear parser.context parser.record p.type false value 0 [] := by
  have hdraft := Template.agrees_draft (template table.schema kind type p name) table.schema settings
    bullet data now
  rw [text?_eq hc h.simple h.named hdata hvalue] at hdraft
  obtain ⟨doc, s', hrun, hrendered, -⟩ := hdraft.yields hs
  obtain ⟨stored, -, hcomposite, hstored, hserved⟩ := served_template hf hc h.simple hparser
  have hsettles := Schema.settles_value hcomposite hserved hvalue hstored name 0 [] (by rintro c ⟨⟩)
  refine ⟨doc, s', hrun, fun n => ?_⟩
  rw [parse_template_eq_ok hf hparser h.named h.visible, render_singleton, hrendered,
    String.toList_ofList, ← List.append_nil (table.schema.textOf p.type value)]
  constructor
  · rintro ⟨c, start, next, m, hread, -, hfold⟩
    exact hsettles.holds ⟨c, start, next, _, hread, n, m, hfold⟩
  · intro hclear
    obtain ⟨c, start, hread, hfold⟩ := hsettles.recovers hclear
    exact ⟨c, start, _, n, hread, rfl, hfold _ n⟩

end Showing

open Showing in
/-- A value of a record type, or of a scalar type, is read back from its draft with the classes filled
in, exactly where its text is clear. -/
theorem Template.parse_record_iff {schema : Schema} {types : String → Prop}
    (hc : schema.Composite types) {type name : String} {d : Declaration} {p : Property}
    (h : schema.HoldsOne types type name d p) (kind : TemplateKind) {table : Table}
    (hf : table.Faithful) (hschema : table.schema = schema) (context : ScanContext) :
    ∃ t parser, Template.ofNodes schema kind type (nodes name) = .ok t ∧
      (t.parser context table).1 = .ok parser ∧
      ∀ data value, data.get? name = some value → schema.Holds p.type false value →
        ∀ settings s, Ready schema settings s → ∀ now bullet, ∃ doc s',
          (t.draft data now).run s = (.ok doc, s') ∧
          ∀ n, (∃ record, parser.parse (render bullet [doc]) n = .ok record ∧
              record.get? name = some (schema.classed p.type value)) ↔
            schema.Clear parser.context parser.record p.type false value 0 [] := by
  subst hschema
  obtain ⟨parser, hparser⟩ := parser_template hf hc h.simple kind type name context
  exact ⟨_, parser, ofNodes_eq hc h kind, hparser,
    fun data value hdata hvalue settings s hs now bullet =>
      parse_draft_iff hf hc h hparser hdata hvalue hs now bullet⟩

namespace Parcel

def optional (name : String) : Property := { Property.plain name "String" with optional := true }

def parcel : Property := .plain "parcel" "Parcel"

def sender : Property := .plain "sender" "Person"

def delivery : Declaration := .concept "Delivery" [parcel]

/-- Parcels may have notes, and their senders a text of some name. -/
def schema (name : String) : Schema := ⟨[delivery, .concept "Parcel" [sender, optional "note"],
  .concept "Person" [.plain "name" "String", optional name]]⟩

def types (type : String) : Prop := type = "Parcel" ∨ type = "Person"

theorem simple_optional (name other : String) : (schema other).Simple types (optional name) :=
  ⟨rfl, rfl, Or.inr ⟨List.mem_cons_self, rfl⟩⟩

theorem composite {name : String} (h : name = "note" ∨ name = "remark") :
    (schema name).Composite types := by
  rintro type (rfl | rfl)
  · exact ⟨_, rfl, rfl, rfl, by decide, by decide, List.forall_mem_cons.mpr
      ⟨⟨rfl, rfl, Or.inl (Or.inr rfl)⟩, List.forall_mem_singleton.mpr (simple_optional _ _)⟩⟩
  · refine ⟨_, rfl, rfl, rfl, ?_, ?_, List.forall_mem_cons.mpr
      ⟨⟨rfl, rfl, Or.inr ⟨by decide, rfl⟩⟩, List.forall_mem_singleton.mpr (simple_optional _ _)⟩⟩
    · rcases h with rfl | rfl <;> decide
    · rcases h with rfl | rfl <;> decide

theorem holdsOne (name : String) :
    (schema name).HoldsOne types "Delivery" "parcel" delivery parcel :=
  ⟨rfl, rfl, rfl, rfl, ⟨rfl, rfl, Or.inl (Or.inl rfl)⟩, by decide, by decide⟩

/-- A parcel with a note, sent by a person. -/
def noted (person : Fields) : Json := .obj [("note", .str "2"), ("sender", .obj person)]

def person : Fields := [("name", .str "1")]

def notedPerson : Fields := [("name", .str "1"), ("note", .str "3")]

theorem note_lt_sender : "note" < "sender" := by decide +kernel

theorem holds_noted {person : Fields} (h : (schema "note").Holds "Person" false (.obj person)) :
    (schema "note").Holds "Parcel" false (noted person) := by
  refine .record rfl rfl (Fields.sorted_cons.mpr ⟨?_, Fields.sorted_singleton _⟩) ?_ ?_ ?_
  · exact List.forall_mem_singleton.mpr note_lt_sender
  · intro name v hget
    rw [Fields.get?_cons, Fields.get?_cons] at hget
    split_ifs at hget with hnote hsender
    · rw [hnote]
      rfl
    · rw [hsender]
      rfl
    · cases hget
  · exact List.forall_mem_cons.mpr ⟨fun _ => rfl, List.forall_mem_singleton.mpr nofun⟩
  · refine List.forall_mem_cons.mpr ⟨fun v hv => ?_, List.forall_mem_singleton.mpr fun v hv => ?_⟩
    · cases hv
      exact h
    · cases hv
      exact .scalar (.string "2")

theorem holds_person : (schema "note").Holds "Person" false (.obj person) := by
  refine .record rfl rfl (Fields.sorted_singleton _) ?_ ?_ ?_
  · intro name v hget
    rw [person, Fields.get?_cons] at hget
    split_ifs at hget with hname
    · rw [hname]
      rfl
    · cases hget
  · exact List.forall_mem_cons.mpr ⟨fun _ => rfl, List.forall_mem_singleton.mpr nofun⟩
  · refine List.forall_mem_cons.mpr ⟨fun v hv => ?_, List.forall_mem_singleton.mpr nofun⟩
    cases hv
    exact .scalar (.string "1")

theorem holds_notedPerson : (schema "note").Holds "Person" false (.obj notedPerson) := by
  refine .record rfl rfl (Fields.sorted_cons.mpr ⟨?_, Fields.sorted_singleton _⟩) ?_ ?_ ?_
  · exact List.forall_mem_singleton.mpr (by decide +kernel)
  · intro name v hget
    rw [notedPerson, Fields.get?_cons, Fields.get?_cons] at hget
    split_ifs at hget with hname hnote
    · rw [hname]
      rfl
    · rw [hnote]
      rfl
    · cases hget
  · exact List.forall_mem_cons.mpr ⟨fun _ => rfl, List.forall_mem_singleton.mpr nofun⟩
  · refine List.forall_mem_cons.mpr ⟨fun v hv => ?_, List.forall_mem_singleton.mpr fun v hv => ?_⟩
    · cases hv
      exact .scalar (.string "1")
    · cases hv
      exact .scalar (.string "3")

def template : Template := Showing.template (schema "note") .clause "Delivery" parcel "parcel"

def context : ScanContext := ⟨0, ⟨0, 0, 0⟩⟩

def data (sender : Fields) : Json := .obj [("parcel", noted sender)]

/-- What parsing makes of a parcel, with these fields and this sender. -/
def record (notes sender : Fields) : Json :=
  .obj [("$class", .str "Delivery"), ("clauseId", .str (Identifier.numbered 0)),
    ("parcel", .obj (("$class", .str "Parcel") :: notes ++
      [("sender", .obj (("$class", .str "Person") :: sender))]))]

theorem draft_person : ∃ doc s', (template.draft (data person) ⟨0, 0, 0⟩).run
      ⟨Table.empty (schema "note") .standard, 0⟩ = (.ok doc, s') ∧
    render '-' [doc] = "sender name \x221\x22, note \x222\x22" :=
  ⟨_, _, by cbv, by cbv⟩

theorem draft_notedPerson : ∃ doc s', (template.draft (data notedPerson) ⟨0, 0, 0⟩).run
      ⟨Table.empty (schema "note") .standard, 0⟩ = (.ok doc, s') ∧
    render '-' [doc] = "sender name \x221\x22, note \x223\x22, note \x222\x22" :=
  ⟨_, _, by cbv, by cbv⟩

theorem parse_notes : ∃ parser,
    (template.parser context (Table.empty (schema "note") .standard)).1 = .ok parser ∧
    parser.parse "sender name \x221\x22, note \x222\x22" 0 =
      .ok (record [] [("name", .str "1"), ("note", .str "2")]) ∧
    parser.parse "sender name \x221\x22, note \x223\x22, note \x222\x22" 0 =
      .ok (record [("note", .str "2")] notedPerson) :=
  ⟨_, by cbv, by cbv, by cbv⟩

/-- Where both have a note the parcel is read back. Where its sender has none, the sender gets the one
of the parcel. -/
theorem parse_record_iff_parcel :
    (schema "note").Composite types ∧
    (schema "note").HoldsOne types "Delivery" "parcel" delivery parcel ∧
    (Table.empty (schema "note") .standard).Faithful ∧
    (schema "note").Holds "Parcel" false (noted notedPerson) ∧
    (schema "note").Holds "Parcel" false (noted person) ∧
    ∃ parser, (template.parser context (Table.empty (schema "note") .standard)).1 = .ok parser ∧
      (schema "note").Clear parser.context parser.record "Parcel" false (noted notedPerson) 0 [] ∧
      parser.parse "sender name \x221\x22, note \x222\x22" 0 =
        .ok (record [] [("name", .str "1"), ("note", .str "2")]) ∧
      ¬ (schema "note").Clear parser.context parser.record "Parcel" false (noted person) 0 [] := by
  have hc := composite (Or.inl rfl)
  have hf := Table.faithful_empty (schema "note") .standard
  have hready : Ready (schema "note") .standard ⟨Table.empty (schema "note") .standard, 0⟩ :=
    ⟨rfl, rfl, hf⟩
  obtain ⟨t, parser, ht, hparser, hiff⟩ :=
    Template.parse_record_iff hc (holdsOne "note") .clause hf rfl context
  obtain rfl : t = template :=
    Except.ok.inj (ht.symm.trans (Showing.ofNodes_eq hc (holdsOne "note") .clause))
  obtain ⟨found, hfound, hlost, hkept⟩ := parse_notes
  obtain rfl : found = parser := Except.ok.inj (hfound.symm.trans hparser)
  refine ⟨hc, holdsOne "note", hf, holds_noted holds_notedPerson, holds_noted holds_person, found,
    hparser, ?_, hlost, fun hclear => ?_⟩
  · obtain ⟨doc, s', hrun, hdoc⟩ := draft_notedPerson
    obtain ⟨doc', s'', hrun', hparse⟩ := hiff (data notedPerson) (noted notedPerson) rfl
      (holds_noted holds_notedPerson) .standard _ hready ⟨0, 0, 0⟩ '-'
    cases hrun.symm.trans hrun'
    rw [hdoc] at hparse
    exact (hparse 0).mp ⟨_, hkept, rfl⟩
  · obtain ⟨doc, s', hrun, hdoc⟩ := draft_person
    obtain ⟨doc', s'', hrun', hparse⟩ := hiff (data person) (noted person) rfl
      (holds_noted holds_person) .standard _ hready ⟨0, 0, 0⟩ '-'
    cases hrun.symm.trans hrun'
    rw [hdoc] at hparse
    obtain ⟨value, hvalue, hget⟩ := (hparse 0).mpr hclear
    cases hlost.symm.trans hvalue
    have hnote : (none : Option Json) = some (.str "2") :=
      congrArg (fun found => found.bind fun parcel => parcel.get? "note") hget
    cases hnote

end Parcel

end ClauseTemplates
