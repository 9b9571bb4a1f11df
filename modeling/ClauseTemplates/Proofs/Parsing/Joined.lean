import ClauseTemplates.Proofs.Reading.Recovered
import ClauseTemplates.Proofs.Template.Binds

namespace ClauseTemplates

open Markdown Drafting Scan Scanner

/-- A property of a record type that holds an array of strings, without a format for them. -/
structure Schema.HoldsStrings (schema : Schema) (type name : String) (d : Declaration)
    (p : Property) : Prop where
  declared : schema.find? type = some d
  record : d.isEnum = false
  property : d.property? name = some p
  array : p.array = true
  strings : p.type = "String"
  value : p.relationship = false
  unformatted : Decorator.format? (Target.ofProperty schema p).decorators = none
  ordinary : schema.isEnum "String" = false
  named : name ≠ thisName

namespace Joining

variable {schema : Schema} {type name : String} {d : Declaration} {p : Property}

/-- The strings of a property one after the other, and static text behind them. -/
def nodes (name separator after : String) : List Node :=
  [.markup .paragraph
    [.join name none separator [.variable (.unbound thisName none)], .text after]]

/-- The same with the types filled in. -/
def body (schema : Schema) (p : Property) (name separator after : String) : List Node :=
  [.markup .paragraph
    [.join name (some "String") separator
      [.variable ⟨thisName, some "String", none, none, (Target.ofProperty schema p).decorators⟩],
      .text after]]

def template (schema : Schema) (kind : TemplateKind) (type : String) (p : Property)
    (name separator after : String) : Template :=
  ⟨kind, type, body schema p name separator after⟩

/-- The text of the strings with the separator between them. -/
def text (separator : List Char) : List String → List Char
  | [] => []
  | s :: rest => Text.quoted s.toList ++
    rest.flatMap fun more => separator ++ Text.quoted more.toList

/-- The join is bound to the property, and the current value inside to its strings. -/
theorem bindRecord_eq (h : schema.HoldsStrings type name d p) (separator after : String) :
    Binding.bindRecord schema type (nodes name separator after) =
      .ok (body schema p name separator after) := by
  have hrecord : schema.isRecord type = true := by
    simp [Schema.isRecord, h.declared, h.record]
  have hresolve : Binding.resolve schema (some (Target.ofType schema type)) name =
      .ok (Target.ofProperty schema p) := by
    simp [Binding.resolve, h.named, Target.ofType, h.declared, h.property]
  have htype : (Target.ofProperty schema p).type = "String" := h.strings
  have hknown : Binding.checkType schema "String" = .ok () := by
    simp [Binding.checkType, Schema.knows, isPrimitive, primitiveTypes]
  have harray : Binding.resolveArray schema (some (Target.ofType schema type)) name =
      .ok (Target.ofProperty schema p) := by
    have hmany : (Target.ofProperty schema p).array = true := h.array
    simp [Binding.resolveArray, hresolve, hmany, htype, hknown, bind, Except.bind, pure, Except.pure]
  have hthis : Binding.resolve schema (some (Target.ofProperty schema p).element) thisName =
      .ok (Target.ofProperty schema p).element := by
    simp [Binding.resolve]
  have helement : (Target.ofProperty schema p).element.type = "String" := htype
  have hvariable := Binding.bindVariable_plain hthis rfl h.value h.unformatted
    (helement ▸ h.ordinary) (helement ▸ rfl)
  have hdecorators : (Target.ofProperty schema p).element.decorators =
      (Target.ofProperty schema p).decorators := rfl
  rw [helement, hdecorators] at hvariable
  rw [Binding.bindRecord, if_pos hrecord]
  simp [nodes, body, Binding.bindNodes, Binding.bindNode, Node.text, harray, hvariable, htype, bind,
    Except.bind, pure, Except.pure]

theorem ofNodes_eq (h : schema.HoldsStrings type name d p) (kind : TemplateKind)
    (separator after : String) :
    Template.ofNodes schema kind type (nodes name separator after) =
      .ok (template schema kind type p name separator after) := by
  rw [Template.ofNodes, bindRecord_eq h]
  rfl

theorem compile_string (schema : Schema) :
    Entry.compile schema ⟨"String", none⟩ = .ok (.scalar .string) := rfl

section

variable {data : Json} {strings : List String}

theorem textsAll?_string {bullet : Char} {context : DraftContext}
    {compound : List Char → List Node → Json → Option (List (List Char))} (margin : List Char)
    (decorators : List Decorator) (s : String) :
    textsAll? schema bullet context compound margin
      [.variable ⟨thisName, some "String", none, none, decorators⟩] (.str s) =
        some [Text.quoted s.toList] := by
  have hfield : field? (.str s) thisName = some (.str s) := rfl
  simp [textsAll?, texts?, variableTexts?, hfield, compile_string, entryTexts?, ScalarProgram.draft,
    Except.toOption]

theorem mapM_strings (each : Json → Option (List (List Char)))
    (h : ∀ s, each (.str s) = some [Text.quoted s.toList]) (strings : List String) :
    (strings.map Json.str).mapM each = some (strings.map fun s => [Text.quoted s.toList]) := by
  induction strings with
  | nil => rfl
  | cons s strings ih =>
    rw [List.map_cons, List.mapM_cons, h, ih]
    rfl

theorem flatten_joinedTexts (separator : String) (strings : List String) :
    (joinedTexts separator (strings.map fun s => [Text.quoted s.toList])).flatten =
      text (Text.escaped separator.toList) strings := by
  cases strings with
  | nil => rfl
  | cons s strings =>
    rw [List.map_cons, joinedTexts_flatten, text, List.flatMap_map]
    simp

/-- The draft shows the quoted strings with the separator between them, and the static text. -/
theorem text?_eq (h : schema.HoldsStrings type name d p)
    (hdata : data.get? name = some (.arr (strings.map .str))) (kind : TemplateKind)
    (separator after : String) (bullet : Char) (now : Instant) :
    (template schema kind type p name separator after).text? schema bullet data now =
      some (text (Text.escaped separator.toList) strings ++ Text.escaped after.toList) := by
  have hobject : data.isObject = true := by
    cases data with
    | obj fields => rfl
    | _ => cases hdata
  have hfield : array? data name = some (strings.map .str) := by
    rw [array?, field?, if_neg h.named, hdata]
    rfl
  have hjoin (compound : List Char → List Node → Json → Option (List (List Char)))
      (decorators : List Decorator) :
      texts? schema bullet ⟨data, now, kind⟩ compound [] (.join name (some "String") separator
        [.variable ⟨thisName, some "String", none, none, decorators⟩]) data =
          some (joinedTexts separator (strings.map fun s => [Text.quoted s.toList])) := by
    rw [texts?, hfield, Option.bind_some, mapM_strings _ (textsAll?_string _ _)]
    rfl
  rw [Template.text?, if_pos hobject]
  simp only [template, body, textsAll?]
  rw [texts?]
  simp only [innerMargin, textsAll?, Node.text]
  rw [hjoin]
  simp [texts?, frameText, blockText, laterText, leafText, flatten_joinedTexts]

end

/-- What reads one string. -/
def item : ValueGrammar := .element none (.seq (.slot thisName (.scalar .string)) .nothing)

theorem grammar_eq (schema : Schema) (kind : TemplateKind) (settings : Settings) (type : String)
    (p : Property) (name separator after : String) :
    (template schema kind type p name separator after).grammar schema settings =
      .seq (.seq (.slot name (.items (Text.escaped separator.toList) false item))
        (.seq (.text (Text.escaped after.toList)) .nothing)) .nothing := rfl

section

variable {context : ScanContext} {compound : String → Scanner Char Captured}

/-- What a string is captured as. -/
def shown (s : String) : Captured := .unwrapped [.mk thisName (.value (.str s)) 0]

/-- A quoted string ends where its closing quote stands, whatever stands behind it. -/
theorem reads_item (s : String) (rest : List Char) :
    Grammar.ReadsValue context compound item rest (Text.quoted s.toList) (shown s) := by
  have hscalar : Grammar.ReadsValue context compound (.scalar .string) rest (Text.quoted s.toList)
      (.value (.str s)) := by
    intro offset
    refine ⟨.value (.str s), ?_, rfl⟩
    have hquoted := ScalarProgram.read?_quotedScanner s.toList offset rest
    rw [Grammar.read?_scalar, ScalarProgram.scanner, read?_bind, hquoted, Option.bind_some,
      String.ofList_toList]
    rfl
  have hseq := (hscalar.slot thisName).seq (Grammar.reads_nothing rest)
  rw [List.append_nil] at hseq
  exact hseq.element none

/-- No string is read where no double quote stands. -/
theorem read?_item_none {c : Cursor Char} (h : ¬ ['\x22'] <+: c.rest) :
    read? (Grammar.valueScanner context compound item) c = none := by
  have hquoted : read? ScalarProgram.quotedScanner c = none := by
    cases hread : read? ScalarProgram.quotedScanner c with
    | none => rfl
    | some x =>
      have hpasses := (ScalarProgram.read?_quotedScanner_passes hread).1
      refine absurd ⟨x.1.flatMap Text.quotedChar ++ ['\x22'] ++ x.2.rest, ?_⟩ h
      rw [hpasses, Text.quoted]
      simp
  rw [item, Grammar.read?_element, Grammar.read?_seq, Grammar.read?_slot, Grammar.read?_scalar,
    ScalarProgram.scanner, read?_bind, hquoted]
  rfl

/-- A separator at the end, without a string behind it, belongs to what follows. -/
theorem reads_join {separator rest : List Char} (hquote : ¬ ['\x22'] <+: rest)
    (hseparator : ¬ separator ++ ['\x22'] <+: rest) (strings : List String) :
    Grammar.ReadsValue context compound (.items separator false item) rest
      (text separator strings) (.array (strings.map shown)) := by
  intro offset
  cases strings with
  | nil =>
    refine ⟨.array [], ?_, rfl⟩
    rw [text, List.nil_append, Grammar.read?_items, read?_separated, read?_item_none hquote]
    rfl
  | cons s more =>
    have hstops : Stops (Grammar.valueScanner context compound item) (exactly separator) rest := by
      intro offset between hread
      have hrest := (read?_exactly_some hread).1
      refine read?_item_none fun hbetween => hseparator ?_
      obtain ⟨later, hlater⟩ := hbetween
      refine ⟨later, ?_⟩
      rw [List.append_assoc, hlater]
      exact hrest.symm
    have hpos (s : String) : separator ++ Text.quoted s.toList ≠ [] := by
      simp [Text.quoted]
    obtain ⟨captured, hread, hall⟩ := read?_separated_of_items hstops
      (fun s : String => Text.quoted s.toList) (fun s c => c.unplaced = shown s) s more hpos false
      (fun _ s _ _ offset => reads_item s _ offset) offset
    refine ⟨.array captured, ?_, ?_⟩
    · rw [behind, List.flatMap_map, ← List.append_assoc] at hread
      rw [Grammar.read?_items, text, hread]
      rfl
    · rw [Captured.unplaced, Grammar.unplacedAll_of_forall₂ hall]

/-- Blanks at the end of a text begin nothing that ends in a double quote. -/
theorem not_prefix_append {v w blanks : List Char} (hblanks : Text.allBlank blanks = true)
    (h : ¬ w ++ ['\x22'] <+: v) : ¬ w ++ ['\x22'] <+: v ++ blanks := by
  intro hprefix
  obtain ⟨rest, hrest⟩ := hprefix
  rcases List.append_eq_append_iff.mp hrest with ⟨more, hv, -⟩ | ⟨more, hw, hb⟩
  · exact h ⟨more, hv.symm⟩
  · rcases List.eq_nil_or_concat more with rfl | ⟨front, last, rfl⟩
    · rw [List.append_nil] at hw
      exact h ⟨[], by rw [List.append_nil, hw]⟩
    · rw [List.concat_eq_append, ← List.append_assoc] at hw
      obtain ⟨-, hlast⟩ := List.append_inj' hw rfl
      have hmem : '\x22' ∈ blanks := by
        rw [hb, ← List.singleton_inj.mp hlast]
        simp
      have hblank := List.all_eq_true.mp hblanks _ hmem
      exact absurd hblank (by decide)

/-- Escaping puts no double quote in front. -/
theorem not_prefix_escaped {after : List Char} (h : ¬ ['\x22'] <+: after) :
    ¬ ['\x22'] <+: Text.escaped after := by
  cases after with
  | nil => exact h
  | cons c after =>
    rw [Text.escaped]
    split
    · simp
    · simpa using h

/-- The grammar of the paragraph reads the strings, the text behind them, and no blanks. -/
theorem reads_body {separator after : String} {blanks : List Char}
    (hquote : ¬ ['\x22'] <+: after.toList)
    (hseparator : ¬ Text.escaped separator.toList ++ ['\x22'] <+: Text.escaped after.toList)
    (hblanks : Text.allBlank blanks = true) (kind : TemplateKind) (settings : Settings)
    (strings : List String) :
    Grammar.Reads context compound
      ((template schema kind type p name separator after).grammar schema settings) blanks
      (text (Text.escaped separator.toList) strings ++ Text.escaped after.toList)
      [.mk name (.array (strings.map shown)) 0] := by
  have hafter : ¬ ['\x22'] <+: Text.escaped after.toList ++ blanks :=
    not_prefix_append (w := []) hblanks (not_prefix_escaped hquote)
  have hvalue : Grammar.ReadsValue context compound
      (.items (Text.escaped separator.toList) false item) (Text.escaped after.toList ++ blanks)
      (text (Text.escaped separator.toList) strings) (.array (strings.map shown)) :=
    reads_join hafter (not_prefix_append hblanks hseparator) strings
  have hlast : Grammar.Reads context compound
      (.seq (.text (Text.escaped after.toList)) .nothing) blanks (Text.escaped after.toList) [] :=
    Grammar.reads_last _ _
  have hparagraph := (hvalue.slot name).seq hlast
  have hbody := hparagraph.seq (Grammar.reads_nothing blanks)
  rw [List.append_nil, List.append_nil] at hbody
  rw [grammar_eq]
  exact hbody

theorem run_foldItems_shown {other : List Char} (strings : List String) (n : Nat) :
    (Captured.foldItems other (strings.map shown)).run n = .ok (strings.map .str, n) := by
  induction strings with
  | nil => rfl
  | cons s strings ih =>
    have hone : (Captured.fold other (shown s)).run n = .ok (.str s, n) := rfl
    rw [List.map_cons]
    exact Captured.run_foldItems_cons.mpr ⟨_, _, _, hone, ih, rfl⟩

end

end Joining

open Joining in
/-- Joins give back their elements. Strings are quoted, so each ends where its closing quote stands,
and a separator with no string behind it is given back to the static text that follows. This holds of
every separator, also of none and of one that contains quotes. -/
theorem Template.parse_joined {schema : Schema} {kind : TemplateKind} {type name : String}
    {d : Declaration} {p : Property} (h : schema.HoldsStrings type name d p)
    (hclass : name ≠ "$class") {separator after : String} (hquote : ¬ ['\x22'] <+: after.toList)
    (hseparator : ¬ Text.escaped separator.toList ++ ['\x22'] <+: Text.escaped after.toList)
    {data : Json} {strings : List String}
    (hdata : data.get? name = some (.arr (strings.map .str))) {table : Table}
    (hf : table.Faithful) (hschema : table.schema = schema) (context : ScanContext)
    {settings : Settings} {s : DraftState} (hs : Ready schema settings s) (now : Instant)
    (bullet : Char) {blanks : List Char} (hblanks : Text.allBlank blanks = true) (n : Nat) :
    ∃ t doc s' parser value,
      Template.ofNodes schema kind type (nodes name separator after) = .ok t ∧
      (t.draft data now).run s = (.ok doc, s') ∧
      (t.parser context table).1 = .ok parser ∧
      parser.parse (render bullet [doc] ++ String.ofList blanks) n = .ok value ∧
      value.get? name = some (.arr (strings.map .str)) := by
  subst hschema
  have hdraft := agrees_draft (template table.schema kind type p name separator after) table.schema
    settings bullet data now
  rw [text?_eq h hdata] at hdraft
  obtain ⟨doc, s', hrun, hrendered, -⟩ := hdraft.yields hs
  have hcompiles : Node.CompilesAll table.schema
      (template table.schema kind type p name separator after).body :=
    ⟨⟨⟨rfl, ⟨rfl, Or.inr ⟨.string, compile_string _⟩⟩, trivial⟩, trivial, trivial⟩, trivial⟩
  obtain ⟨parser, hparser⟩ := Template.parser_of_compiles context hf hcompiles
  have hparse := (Template.parse_of_reads hf hparser hblanks
    (fun compound _ => reads_body hquote hseparator hblanks kind table.settings strings) n).1
  have hslots : (Captured.foldSlots [] [("$class", .str type)]
      [.mk name (.array (strings.map Joining.shown)) 0]).run n =
        .ok (Json.Fields.insertNew name (.arr (strings.map .str)) [("$class", .str type)], n) := by
    refine (Captured.run_foldSlots_cons h.named).mpr ⟨.arr (strings.map .str), n,
      Captured.run_fold_array.mpr ⟨_, run_foldItems_shown strings n, rfl⟩, ?_, rfl⟩
    intro first hfirst
    rw [Json.Fields.get?_cons, if_neg hclass] at hfirst
    cases hfirst
  have hvalue := hparse _ _ (Captured.run_fold_record.mpr ⟨_, n, hslots, rfl, rfl⟩)
  have htext : render bullet [doc] ++ String.ofList blanks =
      String.ofList (text (Text.escaped separator.toList) strings ++ Text.escaped after.toList ++
        blanks) := by
    rw [render_singleton, hrendered, ← String.ofList_append]
  refine ⟨_, doc, s', parser, _, ofNodes_eq h kind separator after, hrun, hparser,
    htext ▸ hvalue, ?_⟩
  have hget : Json.Fields.get? name
      (Json.Fields.insertNew name (.arr (strings.map .str)) [("$class", .str type)]) =
        some (.arr (strings.map .str)) := by
    rw [Json.Fields.get?_insertNew, if_pos rfl, Json.Fields.get?_cons, if_neg hclass]
    rfl
  exact Captured.get?_identified_of_some hget

namespace Ballot

def candidates : Property := { Property.plain "candidates" "String" with array := true }

def ballot : Declaration := .concept "Ballot" [candidates]

def schema : Schema := ⟨[ballot]⟩

def record : Json := .obj [("candidates", .arr (["a\x22b", "", "\\"].map .str))]

theorem holdsStrings : schema.HoldsStrings "Ballot" "candidates" ballot candidates :=
  ⟨rfl, rfl, rfl, rfl, rfl, rfl, rfl, rfl, by decide⟩

/-- The separator may be a quote that could open the next string, and a text like it may follow. -/
theorem parse_joined_ballot :
    schema.HoldsStrings "Ballot" "candidates" ballot candidates ∧
      ¬ ['\x22'] <+: "*\x22".toList ∧
      ¬ Text.escaped "\x22*".toList ++ ['\x22'] <+: Text.escaped "*\x22".toList ∧
      ∃ t doc s' parser value,
        Template.ofNodes schema .clause "Ballot" (Joining.nodes "candidates" "\x22*" "*\x22") = .ok t ∧
        (t.draft record ⟨0, 0, 0⟩).run ⟨Table.empty schema .standard, 0⟩ = (.ok doc, s') ∧
        (t.parser ⟨0, ⟨0, 0, 0⟩⟩ (Table.empty schema .standard)).1 = .ok parser ∧
        parser.parse (render '-' [doc] ++ String.ofList ['\n']) 0 = .ok value ∧
        value.get? "candidates" = some (.arr (["a\x22b", "", "\\"].map .str)) :=
  ⟨holdsStrings, by decide, by decide,
    Template.parse_joined holdsStrings (by decide) (by decide) (by decide) rfl
      (Table.faithful_empty schema .standard) rfl ⟨0, ⟨0, 0, 0⟩⟩
      ⟨rfl, rfl, Table.faithful_empty schema .standard⟩ ⟨0, 0, 0⟩ '-' (by decide) 0⟩

end Ballot

namespace Roster

def roster : Property := { Property.plain "$class" "String" with array := true }

def schema : Schema := ⟨[.concept "Roster" [roster]]⟩

def template : Template := Joining.template schema .clause "Roster" roster "$class" ", " "!"

def record : Json := .obj [("$class", .arr [.str "a"])]

/-- An array that is named for the class shows another value than the class that parsing fills in. -/
theorem parse_joined_class :
    schema.HoldsStrings "Roster" "$class" (.concept "Roster" [roster]) roster ∧
      Template.ofNodes schema .clause "Roster" (Joining.nodes "$class" ", " "!") = .ok template ∧
      ∃ doc s' parser e, (template.draft record ⟨0, 0, 0⟩).run ⟨Table.empty schema .standard, 0⟩ =
          (.ok doc, s') ∧
        (template.parser ⟨0, ⟨0, 0, 0⟩⟩ (Table.empty schema .standard)).1 = .ok parser ∧
        render '-' [doc] = "\x22a\x22!" ∧
        parser.parse (render '-' [doc]) 0 = .error (.inconsistent e) := by
  have h : schema.HoldsStrings "Roster" "$class" (.concept "Roster" [roster]) roster :=
    ⟨rfl, rfl, rfl, rfl, rfl, rfl, rfl, rfl, by decide⟩
  exact ⟨h, Joining.ofNodes_eq h .clause ", " "!", _, _, _, _, by cbv, by cbv, by cbv, by cbv⟩

end Roster

end ClauseTemplates
