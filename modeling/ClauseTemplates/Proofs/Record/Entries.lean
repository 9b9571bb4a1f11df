import ClauseTemplates.Proofs.Record.Reading

namespace ClauseTemplates

open Json Scan Scanner Fragment Captured Folding Grammar

namespace Schema

variable {schema : Schema} {context : ScanContext} {records : String → Scanner Char Captured}
  {kind : TemplateKind} {settings : Settings}

section

variable {e : String × Property}

theorem read?_required (hrequired : e.2.optional = false) (c : Cursor Char) :
    read? ((ofInlines schema kind settings [] (boundEntry schema e)).scanner context records) c =
      read? ((ofLabelled schema e e.2.name).scanner context records) c := by
  have hentry : ofInlines schema kind settings [] (boundEntry schema e) =
      ofLabelled schema e e.2.name := by
    unfold boundEntry
    rw [hrequired]
    exact congrArg _ (ofInlines_boundValue ..)
  rw [hentry]

theorem read?_optional (hoptional : e.2.optional = true) (c : Cursor Char) :
    read? ((ofInlines schema kind settings [] (boundEntry schema e)).scanner context records) c =
      some ((read? ((ofLabelled schema e thisName).scanner context records) c).elim ([], c) fun x =>
        ([.mk e.2.name (.ofElement (elementType schema e.2.type) x.1) c.offset], x.2)) := by
  have hentry : ofInlines schema kind settings [] (boundEntry schema e) =
      .seq (.either (.slot e.2.name (.element (elementType schema e.2.type)
        (ofLabelled schema e thisName))) .nothing) .nothing := by
    unfold boundEntry
    rw [hoptional]
    change Grammar.seq (.either (.slot e.2.name (.element (elementType schema e.2.type)
      (.seq (.text (label e)) (ofInlines schema kind settings [] (boundValue _ _ _ _))))) .nothing)
        .nothing = _
    rw [ofInlines_boundValue]
    rfl
  rw [hentry, read?_seq, read?_either, read?_slot, read?_element, read?_nothing]
  cases read? ((ofLabelled schema e thisName).scanner context records) c with
  | none => rfl
  | some x =>
    simp only [Option.map_some, Option.some_or, Option.bind_some, read?_nothing]
    simp

/-- A value is read as one slot. -/
theorem slot_of_ofShown {type name : String} {array : Bool} {c next : Cursor Char} {slots : List Slot}
    (h : read? ((ofShown schema type array name).scanner context records) c = some (slots, next)) :
    ∃ d start, slots = [.mk name d start] := by
  cases array with
  | false =>
    rw [read?_ofShown] at h
    obtain ⟨x, -, heq⟩ := Option.map_eq_some_iff.mp h
    cases heq
    exact ⟨_, _, rfl⟩
  | true =>
    obtain ⟨mid, hmid, h⟩ := read?_after_some h
    obtain ⟨before, last, more, rfl, hslot, h⟩ := read?_seq_eq_some.mp h
    rw [read?_slot] at hslot
    obtain ⟨x, -, heq⟩ := Option.map_eq_some_iff.mp hslot
    cases heq
    obtain ⟨stop, -, h⟩ := read?_after_some h
    rw [read?_nothing] at h
    cases h
    exact ⟨_, _, rfl⟩

theorem read?_ofLabelled (name : String) (offset : Nat) (rest : List Char) :
    read? ((ofLabelled schema e name).scanner context records) ⟨offset, label e ++ rest⟩ =
      read? ((ofShown schema e.2.type e.2.array name).scanner context records)
        ⟨offset + (label e).length, rest⟩ := by
  rw [ofLabelled, read?_seq, read?_text_append, Option.bind_some]
  cases read? ((ofShown schema e.2.type e.2.array name).scanner context records)
    ⟨offset + (label e).length, rest⟩ <;> rfl

theorem slot_of_ofLabelled {name : String} {c next : Cursor Char} {slots : List Slot}
    (h : read? ((ofLabelled schema e name).scanner context records) c = some (slots, next)) :
    ∃ d start, slots = [.mk name d start] := by
  obtain ⟨mid, -, h⟩ := read?_after_some h
  exact slot_of_ofShown h

/-- A property is read as one slot under its name, or as none if it may be absent and nothing can be
read. -/
theorem slot_of_boundEntry {c next : Cursor Char} {slots : List Slot}
    (h : read? ((ofInlines schema kind settings [] (boundEntry schema e)).scanner context records) c =
      some (slots, next)) :
    (∃ d start, slots = [.mk e.2.name d start]) ∨
      slots = [] ∧ next = c ∧ e.2.optional = true ∧
        read? ((ofLabelled schema e thisName).scanner context records) c = none := by
  cases hoptional : e.2.optional with
  | false =>
    rw [read?_required hoptional] at h
    exact Or.inl (slot_of_ofLabelled h)
  | true =>
    rw [read?_optional hoptional] at h
    cases hread : read? ((ofLabelled schema e thisName).scanner context records) c with
    | none =>
      rw [hread] at h
      cases h
      exact Or.inr ⟨rfl, rfl, rfl, rfl⟩
    | some x =>
      rw [hread] at h
      cases h
      exact Or.inl ⟨_, _, rfl⟩

/-- A property that is there is read back exactly where its value is. -/
theorem settles_boundEntry {v : Json} {P : Prop} {after : List Char} {offset : Nat}
    (hvalue : ∀ name, Settles context records P (ofShown schema e.2.type e.2.array name) name
      (schema.textOf e.2.type v) after (offset + (label e).length) (schema.classed e.2.type v)) :
    Settles context records P (ofInlines schema kind settings [] (boundEntry schema e)) e.2.name
      (label e ++ schema.textOf e.2.type v) after offset (schema.classed e.2.type v) := by
  have hlength : offset + (label e ++ schema.textOf e.2.type v).length =
      offset + (label e).length + (schema.textOf e.2.type v).length := by
    rw [List.length_append, Nat.add_assoc]
  cases hoptional : e.2.optional with
  | false =>
    constructor
    · intro h
      obtain ⟨c, start, hread, hfold⟩ := (hvalue e.2.name).recovers h
      refine ⟨c, start, ?_, hfold⟩
      rw [read?_required hoptional, List.append_assoc, read?_ofLabelled, hread, hlength]
    · rintro ⟨c, start, next, text, hread, hfold⟩
      rw [read?_required hoptional, List.append_assoc, read?_ofLabelled] at hread
      exact (hvalue e.2.name).holds ⟨c, start, next, text, hread, hfold⟩
  | true =>
    constructor
    · intro h
      obtain ⟨c, start, hread, hfold⟩ := (hvalue thisName).recovers h
      refine ⟨.unwrapped [.mk thisName c start], offset, ?_, fun text n =>
        run_fold_alone.mpr (hfold text n)⟩
      rw [read?_optional hoptional, List.append_assoc, read?_ofLabelled, hread, hlength]
      rfl
    · rintro ⟨c, start, next, text, hread, hfold⟩
      rw [read?_optional hoptional, List.append_assoc, read?_ofLabelled] at hread
      cases hshown : read? ((ofShown schema e.2.type e.2.array thisName).scanner context records)
          ⟨offset + (label e).length, schema.textOf e.2.type v ++ after⟩ with
      | none =>
        rw [hshown] at hread
        cases hread
      | some x =>
        obtain ⟨slots, last⟩ := x
        obtain ⟨d, start', rfl⟩ := slot_of_ofShown hshown
        rw [hshown] at hread
        cases hread
        obtain ⟨n, m, hfold⟩ := hfold
        exact (hvalue thisName).holds ⟨d, start', last, text, hshown, n, m, run_fold_alone.mp hfold⟩

theorem slot_of_boundEntries {es : List (String × Property)} {c next : Cursor Char} {slots : List Slot}
    (h : read? ((ofInlines schema kind settings [] (boundEntries schema es)).scanner context records)
      c = some (slots, next)) : ∀ slot ∈ slots, ∃ e ∈ es, slot.name = e.2.name := by
  induction es generalizing c slots with
  | nil =>
    rw [boundEntries, List.flatMap_nil, ofInlines, read?_nothing] at h
    cases h
    exact fun _ h => absurd h List.not_mem_nil
  | cons e es ih =>
    rw [boundEntries, List.flatMap_cons, read?_ofInlines_append] at h
    obtain ⟨⟨first, mid⟩, hfirst, h⟩ := Option.bind_eq_some_iff.mp h
    obtain ⟨⟨more, last⟩, hmore, heq⟩ := Option.map_eq_some_iff.mp h
    cases heq
    intro slot hslot
    rcases List.mem_append.mp hslot with hslot | hslot
    · rcases slot_of_boundEntry hfirst with ⟨d, start, rfl⟩ | ⟨rfl, -⟩
      · obtain rfl := List.mem_singleton.mp hslot
        exact ⟨e, List.mem_cons_self, rfl⟩
      · cases hslot
    · obtain ⟨e', he', hname⟩ := ih hmore slot hslot
      exact ⟨e', List.mem_cons_of_mem _ he', hname⟩

end

/-- Where all entries but the first have their separator in front, a value ends before the others. -/
theorem behindValue_entriesText {fields : Fields} {es : List (String × Property)} {after : List Char}
    (hleads : ∀ e ∈ es, e.1 = Markup.defaultSeparator) (hafter : BehindValue after) :
    BehindValue (schema.entriesText fields es ++ after) := by
  induction es with
  | nil => exact hafter
  | cons e es ih =>
    obtain ⟨hlead, hleads⟩ := List.forall_mem_cons.mp hleads
    rw [entriesText_cons, List.append_assoc]
    cases hget : Fields.get? e.2.name fields with
    | none =>
      rw [entryText_none hget]
      exact ih hleads
    | some v =>
      rw [entryText_some hget, label, hlead]
      intro c hc
      have htext : (Markup.defaultSeparator ++ e.2.name ++ " ").toList =
          ',' :: ' ' :: (e.2.name ++ " ").toList := by
        simp [Markup.defaultSeparator]
      rw [htext] at hc
      cases hc
      exact Or.inl rfl

theorem lead_first {d : Declaration} {first : String × Property} {rest : List (String × Property)}
    (h : d.entries = first :: rest) : first.1 = "" := by
  unfold Declaration.entries at h
  split at h
  · cases h
  · cases h
    rfl

/-- The entries that follow the first have a separator in front. -/
theorem leads_entries (d : Declaration) : ∀ e ∈ d.entries.tail, e.1 = Markup.defaultSeparator := by
  unfold Declaration.entries
  split
  · simp
  · simp

theorem lead_entries (d : Declaration) : ∀ e ∈ d.entries, e.1 = "" ∨ e.1 = Markup.defaultSeparator := by
  intro e he
  have hlater := leads_entries d
  cases hentries : d.entries with
  | nil =>
    rw [hentries] at he
    cases he
  | cons first rest =>
    rw [hentries] at he hlater
    rcases List.mem_cons.mp he with rfl | he
    · exact Or.inl (lead_first hentries)
    · exact Or.inr (hlater e he)

section

variable {fields known found : Fields} {e : String × Property} {es : List (String × Property)}
  {v : Json}

/-- What stands under a name when some entries are added to what is known. -/
def Added (schema : Schema) (fields known found : Fields) (es : List (String × Property)) : Prop :=
  ∀ name, Fields.get? name found = (Fields.get? name known).or
    ((es.find? (·.2.name == name)).bind fun e =>
      (Fields.get? name fields).map (schema.classed e.2.type))

theorem Added.present (hget : Fields.get? e.2.name fields = some v)
    (hknown : Fields.get? e.2.name known = none)
    (h : Added schema fields (Fields.insertNew e.2.name (schema.classed e.2.type v) known) found es) :
    Added schema fields known found (e :: es) := by
  intro name
  rw [h name, Fields.get?_insertNew, List.find?_cons]
  by_cases hname : name = e.2.name
  · subst hname
    simp [hknown, hget]
  · rw [if_neg hname, beq_eq_false_iff_ne.mpr (Ne.symm hname)]

theorem Added.absent (hget : Fields.get? e.2.name fields = none)
    (h : Added schema fields known found es) : Added schema fields known found (e :: es) := by
  intro name
  rw [h name, List.find?_cons]
  by_cases hname : name = e.2.name
  · subst hname
    simp [hget]
  · rw [beq_eq_false_iff_ne.mpr (Ne.symm hname)]

/-- Names that are not known yet stay so when another one is added. -/
theorem unknown_insertNew {w : Json} (hdistinct : ((e :: es).map (·.2.name)).Nodup)
    (hknown : ∀ e' ∈ es, Fields.get? e'.2.name known = none) :
    ∀ e' ∈ es, Fields.get? e'.2.name (Fields.insertNew e.2.name w known) = none := by
  intro e' he'
  have hne : e'.2.name ≠ e.2.name := fun heq =>
    (List.nodup_cons.mp hdistinct).1 (List.mem_map.mpr ⟨e', he', heq⟩)
  rw [Fields.get?_insertNew, if_neg hne, hknown e' he']

/-- Entries of properties with names of their own, whose values are read back exactly where they are
clear. -/
structure Readable (schema : Schema) (context : ScanContext) (records : String → Scanner Char Captured)
    (fields : Fields) (es : List (String × Property)) : Prop where
  values : ∀ e ∈ es, ∀ v, Fields.get? e.2.name fields = some v → ∀ name offset after,
    BehindValue after → Settles context records
      (Clear schema context records e.2.type e.2.array v offset after)
      (ofShown schema e.2.type e.2.array name) name (schema.textOf e.2.type v) after offset
      (schema.classed e.2.type v)
  named : ∀ e ∈ es, e.2.name ≠ thisName
  distinct : (es.map (·.2.name)).Nodup
  required : ∀ e ∈ es, e.2.optional = false → (Fields.get? e.2.name fields).isSome = true
  leads : ∀ e ∈ es.tail, e.1 = Markup.defaultSeparator

namespace Readable

variable (h : Readable schema context records fields (e :: es))

include h

theorem tail : Readable schema context records fields es where
  values e' he' := h.values e' (List.mem_cons_of_mem _ he')
  named e' he' := h.named e' (List.mem_cons_of_mem _ he')
  distinct := (List.nodup_cons.mp h.distinct).2
  required e' he' := h.required e' (List.mem_cons_of_mem _ he')
  leads e' he' := h.leads e' (List.mem_of_mem_tail he')

/-- The first property is read back exactly where its value is clear. -/
theorem settles (hget : Fields.get? e.2.name fields = some v) {after : List Char}
    (hafter : BehindValue after) (offset : Nat) :
    Settles context records (Clear schema context records e.2.type e.2.array v
        (offset + (label e).length) (schema.entriesText fields es ++ after))
      (ofInlines schema kind settings [] (boundEntry schema e)) e.2.name (schema.entryText fields e)
      (schema.entriesText fields es ++ after) offset (schema.classed e.2.type v) := by
  rw [entryText_some hget]
  exact settles_boundEntry fun name => h.values e List.mem_cons_self v hget name _ _
    (behindValue_entriesText h.leads hafter)

theorem optional (hget : Fields.get? e.2.name fields = none) : e.2.optional = true := by
  cases hoptional : e.2.optional with
  | true => rfl
  | false =>
    have hpresent := h.required e List.mem_cons_self hoptional
    rw [hget] at hpresent
    cases hpresent

end Readable

/-- Clear entries are read back, and they add their fields. -/
theorem entries_of_clear (hes : Readable schema context records fields es) {offset : Nat}
    {after : List Char} (hafter : BehindValue after)
    (h : ClearEntries schema context records fields es offset after) :
    ∃ slots, read? ((ofInlines schema kind settings [] (boundEntries schema es)).scanner context
        records) ⟨offset, schema.entriesText fields es ++ after⟩ =
        some (slots, ⟨offset + (schema.entriesText fields es).length, after⟩) ∧
      ∀ known : Fields, known.Sorted → (∀ e ∈ es, Fields.get? e.2.name known = none) → ∀ text n,
        ∃ found : Fields, (foldSlots text known slots).run n = .ok (found, n) ∧ found.Sorted ∧
          Added schema fields known found es := by
  induction es generalizing offset with
  | nil =>
    refine ⟨[], read?_nothing _, fun known hsorted _ text n => ⟨known, rfl, hsorted, fun name => ?_⟩⟩
    cases Fields.get? name known <;> rfl
  | cons e es ih =>
    rw [boundEntries, List.flatMap_cons, read?_ofInlines_append, entriesText_cons, List.append_assoc,
      List.length_append]
    cases h with
    | @present _ _ _ v _ _ hget hclear hlater =>
      obtain ⟨c, start, hread, hfold⟩ := (hes.settles hget hafter offset).recovers hclear
      obtain ⟨slots, hslots, hadds⟩ := ih hes.tail hlater
      refine ⟨.mk e.2.name c start :: slots, ?_, fun known hsorted hknown text n => ?_⟩
      · rw [hread, Option.bind_some]
        rw [boundEntries] at hslots
        rw [hslots, Option.map_some, Nat.add_assoc]
        rfl
      · obtain ⟨hunknown, hothers⟩ := List.forall_mem_cons.mp hknown
        obtain ⟨found, hfound, hresult, hadded⟩ := hadds
          (Fields.insertNew e.2.name (schema.classed e.2.type v) known)
          (hsorted.insertNew _ _) (unknown_insertNew hes.distinct hothers) text n
        refine ⟨found, ?_, hresult, hadded.present hget hunknown⟩
        refine (run_foldSlots_cons (hes.named e List.mem_cons_self)).mpr
          ⟨_, n, hfold text n, fun first hfirst => ?_, hfound⟩
        rw [hunknown] at hfirst
        cases hfirst
    | absent hget hnone hlater =>
      obtain ⟨slots, hslots, hadds⟩ := ih hes.tail hlater
      refine ⟨slots, ?_, fun known hsorted hknown text n => ?_⟩
      · rw [boundEntries] at hslots
        rw [entryText_none hget, List.nil_append, read?_optional (hes.optional hget), hnone,
          Option.elim_none, Option.bind_some, hslots, Option.map_some, List.length_nil, Nat.zero_add]
        rfl
      · obtain ⟨found, hfound, hresult, hadded⟩ := hadds known hsorted
          (List.forall_mem_cons.mp hknown).2 text n
        exact ⟨found, hfound, hresult, hadded.absent hget⟩

/-- Entries that give back what is there are clear. -/
theorem clear_of_entries (hes : Readable schema context records fields es) {offset : Nat}
    {after text : List Char} (hafter : BehindValue after) {known found : Fields} {slots : List Slot}
    {next : Cursor Char} {n m : Nat}
    (hread : read? ((ofInlines schema kind settings [] (boundEntries schema es)).scanner context
      records) ⟨offset, schema.entriesText fields es ++ after⟩ = some (slots, next))
    (hfold : (foldSlots text known slots).run n = .ok (found, m))
    (hknown : ∀ e ∈ es, Fields.get? e.2.name known = none)
    (hfound : ∀ e ∈ es, Fields.get? e.2.name found =
      (Fields.get? e.2.name fields).map (schema.classed e.2.type)) :
    ClearEntries schema context records fields es offset after := by
  induction es generalizing offset known slots n with
  | nil => exact .nil
  | cons e es ih =>
    rw [boundEntries, List.flatMap_cons, read?_ofInlines_append, entriesText_cons, List.append_assoc]
      at hread
    obtain ⟨⟨first, mid⟩, hfirst, hread⟩ := Option.bind_eq_some_iff.mp hread
    obtain ⟨⟨more, last⟩, hmore, heq⟩ := Option.map_eq_some_iff.mp hread
    cases heq
    obtain ⟨hunknown, hothers⟩ := List.forall_mem_cons.mp hknown
    obtain ⟨hvalue, hvalues⟩ := List.forall_mem_cons.mp hfound
    have hnamed := hes.named e List.mem_cons_self
    cases hget : Fields.get? e.2.name fields with
    | none =>
      rw [entryText_none hget, List.nil_append] at hfirst
      rcases slot_of_boundEntry hfirst with ⟨d, start, rfl⟩ | ⟨rfl, rfl, -, hnone⟩
      · obtain ⟨v, k, -, -, hrest⟩ := (run_foldSlots_cons hnamed).mp hfold
        have hkept := foldSlots_keeps hrest ((Fields.get?_insertNew _ _ v known).trans (if_pos rfl))
        rw [hvalue, hget] at hkept
        cases hkept
      · exact .absent hget hnone (ih hes.tail hmore hfold hothers hvalues)
    | some v =>
      rcases slot_of_boundEntry hfirst with ⟨d, start, rfl⟩ | ⟨rfl, -⟩
      · obtain ⟨w, k, hw, -, hrest⟩ := (run_foldSlots_cons hnamed).mp hfold
        have hkept := foldSlots_keeps hrest ((Fields.get?_insertNew _ _ w known).trans (if_pos rfl))
        rw [hvalue, hget, hunknown] at hkept
        cases hkept
        have hsettles : Settles context records (Clear schema context records e.2.type e.2.array v
              (offset + (label e).length) (schema.entriesText fields es ++ after))
            (ofInlines schema kind settings [] (boundEntry schema e)) e.2.name
            (schema.entryText fields e) (schema.entriesText fields es ++ after) offset
            (schema.classed e.2.type v) := hes.settles hget hafter offset
        have hclear := hsettles.holds ⟨d, start, mid, text, hfirst, n, k, hw⟩
        obtain ⟨c, start', hread', -⟩ := hsettles.recovers hclear
        cases hfirst.symm.trans hread'
        exact .present hget hclear
          (ih hes.tail hmore hrest (unknown_insertNew hes.distinct hothers) hvalues)
      · -- The value that is there comes from no slot.
        rcases foldSlots_field hfold (hvalue.trans (congrArg _ hget)) with
          hfield | ⟨c, start, j, k, hmem, -⟩
        · rw [hunknown] at hfield
          cases hfield
        · obtain ⟨e', he', hname⟩ := slot_of_boundEntries hmore _ hmem
          exact absurd (List.mem_map.mpr ⟨e', he', hname.symm⟩) (List.nodup_cons.mp hes.distinct).1

end

section

variable {types : String → Prop} {type : String} {d : Declaration} {fields : Fields}

theorem names_entries (hd : schema.Composed types type d) :
    d.entries.map (·.2.name) = d.properties.map (·.name) := by
  rw [← map_entries fun p hp => (hd.named p hp).2, List.map_map]
  rfl

theorem name_ne_class (hd : schema.Composed types type d) {e : String × Property} (he : e ∈ d.entries) :
    e.2.name ≠ "$class" := by
  intro hname
  have hsystem := (hd.named e.2 (mem_properties he)).2
  rw [Property.isSystem, hname] at hsystem
  cases hsystem

/-- The fields of all entries and the class make the record. -/
theorem eq_classed_of_added (hd : schema.Composed types type d) (hfields : fields.Sorted)
    (hdeclared : ∀ name v, Fields.get? name fields = some v → (d.property? name).isSome = true)
    {found : Fields} (hfound : found.Sorted)
    (h : Added schema fields [("$class", .str type)] found d.entries) :
    Json.obj found = schema.classed type (.obj fields) := by
  rw [classed]
  refine congrArg _ (hfound.ext ((sorted_classedFields hfields).insertNew _ _) fun name => ?_)
  rw [h name, get?_classed hd hdeclared, Fields.get?_cons]
  by_cases hclass : name = "$class"
  · rw [if_pos hclass, if_pos hclass, Option.some_or]
  · rw [if_neg hclass, if_neg hclass]
    cases hget : Fields.get? name fields with
    | none => cases d.entries.find? (·.2.name == name) <;> rfl
    | some v =>
      obtain ⟨p, hp⟩ := Option.isSome_iff_exists.mp (hdeclared name v hget)
      obtain ⟨hmem, hname⟩ := Declaration.of_property? hp
      rw [← map_entries fun p hp => (hd.named p hp).2] at hmem
      obtain ⟨e, he, rfl⟩ := List.mem_map.mp hmem
      have hsome : (d.entries.find? (·.2.name == name)).isSome = true :=
        List.find?_isSome.mpr ⟨e, he, beq_iff_eq.mpr hname⟩
      obtain ⟨e', he'⟩ := Option.isSome_iff_exists.mp hsome
      have hfirst := List.find?_some he'
      have hname' : e'.2.name = name := beq_iff_eq.mp hfirst
      have htype := fieldType_composed hd (mem_properties (List.mem_of_find?_eq_some he'))
      rw [he', ← hname', htype]
      rfl

/-- Records of a type are read by the template of the type. -/
def Served (schema : Schema) (kind : TemplateKind) (settings : Settings) (context : ScanContext)
    (records : String → Scanner Char Captured) (type : String) (d : Declaration) : Prop :=
  ∀ c, read? (records type) c = read? (valueScanner context records (.record type none
    (ofInlines schema kind settings [] (boundEntries schema d.entries)))) c

theorem Served.read? (h : Served schema kind settings context records type d)
    (hc : schema.Composite types) (hd : schema.Composed types type d) (c : Cursor Char) :
    Scanner.read? (valueScanner context records (ofType schema type)) c =
      (Scanner.read? ((ofInlines schema kind settings [] (boundEntries schema d.entries)).scanner
        context records) c).map fun x => (.record type none x.1, x.2) := by
  have hvalue : ofType schema type = .compound type := by
    simp [ofType, ofValue, Entry.compile_composed hc hd]
  rw [hvalue, ← read?_record]
  exact h c

/-- A record is read back exactly where its entries are clear. -/
theorem settles_record (hc : schema.Composite types) (hd : schema.Composed types type d)
    (hserved : Served schema kind settings context records type d)
    (hfields : fields.Sorted)
    (hdeclared : ∀ name v, Fields.get? name fields = some v → (d.property? name).isSome = true)
    (hes : Readable schema context records fields d.entries) (name : String) (offset : Nat)
    {after : List Char} (hafter : BehindValue after) :
    Settles context records (Clear schema context records type false (.obj fields) offset after)
      (ofShown schema type false name) name (schema.textOf type (.obj fields)) after offset
      (schema.classed type (.obj fields)) := by
  have hread := hserved.read? hc hd
  have hknown (e : String × Property) (he : e ∈ d.entries) :
      Fields.get? e.2.name [("$class", .str type)] = none := by
    rw [Fields.get?_cons, if_neg (name_ne_class hd he)]
    rfl
  rw [textOf_obj hd]
  constructor
  · intro h
    cases h with
    | scalar h => cases h
    | @record _ d' _ _ _ hd' hentries =>
      obtain rfl : d' = d := Option.some.inj (hd'.symm.trans hd.declared)
      obtain ⟨slots, hslots, hadds⟩ := entries_of_clear hes hafter hentries
      refine ⟨.record type none slots, offset, ?_, fun text n => ?_⟩
      · rw [read?_ofShown, hread, hslots]
        rfl
      · obtain ⟨found, hfound, hsorted, hadded⟩ := hadds _ (Fields.sorted_singleton _) hknown text n
        rw [← eq_classed_of_added hd hfields hdeclared hsorted hadded]
        exact run_fold_record.mpr ⟨found, n, hfound, rfl, rfl⟩
  · rintro ⟨c, start, next, text, hshown, n, m, hfold⟩
    rw [read?_ofShown, hread, Option.map_map] at hshown
    obtain ⟨⟨slots, last⟩, hslots, heq⟩ := Option.map_eq_some_iff.mp hshown
    cases heq
    obtain ⟨found, k, hfound, heq, -⟩ := run_fold_record.mp hfold
    rw [classed] at heq
    have hfields' : found = Fields.insertNew "$class" (.str type) (schema.classedFields type fields) :=
      (Json.obj.inj heq).symm
    refine .record hd.declared (clear_of_entries hes hafter hslots hfound hknown fun e he => ?_)
    rw [hfields', get?_classed hd hdeclared, if_neg (name_ne_class hd he),
      fieldType_composed hd (mem_properties he)]

/-- A value is read back exactly where its text is clear. -/
theorem settles_value (hc : schema.Composite types)
    (hserved : ∀ type d, types type → schema.find? type = some d →
      Served schema kind settings context records type d)
    {array : Bool} {value : Json} (h : schema.Holds type array value)
    (htype : types type ∨ type ∈ scalarTypes) (name : String) (offset : Nat) (after : List Char)
    (hafter : BehindValue after) :
    Settles context records (Clear schema context records type array value offset after)
      (ofShown schema type array name) name (schema.textOf type value) after offset
      (schema.classed type value) := by
  induction h generalizing name offset after with
  | @scalar type value hscalar =>
    obtain ⟨program, hentry, -, hreads⟩ := hscalar.reads schema
    have hvalue : ofType schema type = .scalar program := by
      simp [ofType, ofValue, hentry]
    have hclassed : schema.classed type value = value := by
      cases hscalar <;> rfl
    refine ⟨fun _ => ⟨.value value, offset, ?_, fun text n => ?_⟩, fun _ => .scalar hscalar⟩
    · rw [read?_ofShown, hvalue, read?_scalar, hreads after hafter]
      rfl
    · rw [hclassed]
      exact run_fold_value.mpr ⟨rfl, rfl⟩
  | @array type items hitems ih =>
    exact settles_array (fun item hitem offset after hafter =>
      ih item hitem htype thisName offset after hafter) name offset after
  | @record type d fields hd hcompound hsorted hdeclared hrequired hvalues ih =>
    have htypes : types type := by
      refine htype.resolve_right fun hmem => ?_
      have hscalar := ScalarType.ofName?_scalarType hmem
      rw [hcompound] at hscalar
      cases hscalar
    obtain ⟨d', hd'⟩ := hc type htypes
    obtain rfl : d' = d := Option.some.inj (hd'.declared.symm.trans hd)
    have hmem (e : String × Property) (he : e ∈ d'.entries) : e.2 ∈ d'.properties := mem_properties he
    refine settles_record hc hd' (hserved type d' htypes hd) hsorted hdeclared ?_ name offset hafter
    exact {
      values e he v hget name offset after hafter := ih e.2 (hmem e he) v hget
        ((hd'.simple e.2 (hmem e he)).type.imp_right And.left) name offset after hafter
      named e he := (hd'.named e.2 (hmem e he)).1
      distinct := by
        rw [names_entries hd']
        exact hd'.distinct
      required e he := hrequired e.2 (hmem e he)
      leads := leads_entries d' }

end

end Schema

end ClauseTemplates
