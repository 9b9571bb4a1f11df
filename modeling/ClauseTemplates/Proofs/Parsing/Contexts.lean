import ClauseTemplates.Proofs.Conforming.Basic
import ClauseTemplates.Proofs.Format.Fields
import ClauseTemplates.Proofs.Parsing.Progress

namespace ClauseTemplates

open Scan Scanner

namespace DateTimeFormat

theorem isSome_lookup_reverse {fields : List (DateField × Int)} {f : DateField}
    (h : f ∈ fields.map Prod.fst) : ∃ value, fields.reverse.lookup f = some value := by
  rw [← Option.isSome_iff_exists, List.lookup_isSome_iff]
  simpa using h

/-- The clock supplies the year, and the settings the offset: where both are read, neither counts,
also not for what is refused. -/
theorem assemble_context {fields : List (DateField × Int)} (hyear : .year ∈ fields.map Prod.fst)
    (hoffset : .offset ∈ fields.map Prod.fst) (context context' : ScanContext) :
    assemble context fields = assemble context' fields := by
  obtain ⟨year, hyear⟩ := isSome_lookup_reverse hyear
  obtain ⟨offset, hoffset⟩ := isSome_lookup_reverse hoffset
  unfold assemble
  simp only [hyear, hoffset, Option.getD_some]

theorem scanner_context {format : DateTimeFormat} (hyear : format.Shows .year)
    (hoffset : format.Shows .offset) (context context' : ScanContext) :
    format.scanner context = format.scanner context' := by
  funext c
  unfold scanner tryMap
  cases hread : fieldScanner format.tokens c with
  | failure f => rfl
  | success fields next alt =>
    have hresult : read? (fieldScanner format.tokens) c = some (fields, next) := by
      unfold read?
      rw [hread]
      rfl
    have hmem (f : DateField) (hf : format.Shows f) : f ∈ fields.map Prod.fst := by
      rw [fields_fieldScanner hresult]
      exact List.mem_filterMap.mpr hf
    dsimp only
    rw [assemble_context (hmem .year hyear) (hmem .offset hoffset) context context']

end DateTimeFormat

/-- If the key asks for times, its format tells the year and the offset of a time. -/
def EntryKey.Timeless (key : EntryKey) : Prop := key.type = "DateTime" → ∀ format,
  DateTimeFormat.compile (key.format.map String.toList) = .ok format →
    format.Shows .year ∧ format.Shows .offset

theorem ScalarType.ofName?_dateTime {name : String} (h : ofName? name = some .dateTime) :
    name = "DateTime" := by
  unfold ofName? at h
  split_ifs at h with _ _ _ _ _ hname <;> cases h
  exact hname

theorem Entry.compile_dateTime {schema : Schema} {key : EntryKey} {format : DateTimeFormat}
    (h : Entry.compile schema key = .ok (.scalar (.dateTime format))) :
    key.type = "DateTime" ∧
      DateTimeFormat.compile (key.format.map String.toList) = .ok format := by
  unfold Entry.compile at h
  split at h
  · rename_i type htype
    split at h
    · rename_i program hprogram
      cases h
      cases type with
      | dateTime =>
        simp only [ScalarProgram.compile, Except.map] at hprogram
        split at hprogram
        · cases hprogram
        · rename_i found hfound
          cases hprogram
          exact ⟨ScalarType.ofName?_dateTime htype, hfound⟩
      | _ =>
        simp only [ScalarProgram.compile, Except.map] at hprogram
        split at hprogram <;> cases hprogram
    · cases h
  · split at h
    · cases h
    · split at h
      · cases h
      · split at h <;> cases h

theorem Entry.scanner_context {schema : Schema} {key : EntryKey} {program : ScalarProgram}
    (hentry : Entry.compile schema key = .ok (.scalar program)) (hkey : key.Timeless)
    (context context' : ScanContext) : program.scanner context = program.scanner context' := by
  cases program with
  | dateTime format =>
    obtain ⟨htype, hformat⟩ := Entry.compile_dateTime hentry
    obtain ⟨hyear, hoffset⟩ := hkey htype format hformat
    exact DateTimeFormat.scanner_context hyear hoffset context context'
  | _ => rfl

namespace Compiling

variable {schema : Schema} {settings : Settings} {kind : TemplateKind} {s : CompileState}

/-- The leaves of the grammar of nodes are read the same, given that the records inside are. -/
theorem leaf_context {ns : List Node} {keys : List EntryKey} {v : ValueGrammar}
    {context context' : ScanContext} {compound compound' : String → Scanner Char Captured}
    (hleaf : Grammar.Serves schema keys v) (hkeys : ∀ key ∈ keys, Requested schema ns key)
    (htimeless : ∀ key, Requested schema ns key → key.Timeless)
    (hcompound : ∀ key type children, Requested schema ns key →
      Entry.compile schema key = .ok (.compound type children) → compound type = compound' type) :
    Grammar.valueScanner context compound v = Grammar.valueScanner context' compound' v := by
  obtain ⟨key, hkey, e, hentry, rfl⟩ := hleaf
  cases e with
  | scalar program =>
    rw [Entry.leaf, Grammar.valueScanner, Grammar.valueScanner,
      Entry.scanner_context hentry (htimeless key (hkeys key hkey)) context context']
  | compound type children =>
    rw [Entry.leaf, Grammar.valueScanner, Grammar.valueScanner]
    exact hcompound key type children (hkeys key hkey) hentry

/-- The records of a type that nodes show are read the same in two contexts. -/
theorem compoundScanner_context (hs : Orderly schema settings kind s) {ns : List Node}
    (htimeless : ∀ key, Requested schema ns key → key.Timeless) (context context' : ScanContext)
    (fuel : Nat) : ∀ key type children, Requested schema ns key →
      Entry.compile schema key = .ok (.compound type children) →
        Grammar.compoundScanner context s.compounds fuel type =
          Grammar.compoundScanner context' s.compounds fuel type := by
  induction fuel with
  | zero => exact fun _ _ _ _ _ => rfl
  | succ fuel ih =>
    intro key type children hkey hentry
    rw [Grammar.compoundScanner, Grammar.compoundScanner]
    cases hlookup : s.compounds.lookup type with
    | none => rfl
    | some g =>
      obtain ⟨children', hentry', rfl, -⟩ := hs.of_lookup hlookup
      obtain ⟨rfl, -⟩ := Entry.key_of_compound hentry
      obtain rfl : children = children' := by
        cases hentry.symm.trans hentry'
        rfl
      apply Grammar.valueScanner_congr
      intro v hv
      have htyped := Node.EveryAll.mono (fun _ h => h.1) children (Entry.compile_typed hentry)
      exact leaf_context (Grammar.serves_ofInlines [] children htyped v hv)
        (fun inner hinner => .inside hkey hentry hinner) htimeless ih

end Compiling

theorem TemplateParser.parse_congr {p p' : TemplateParser}
    (h : Grammar.textScanner p.context p.compounds p.root =
      Grammar.textScanner p'.context p'.compounds p'.root) (text : String) :
    p.capture text.toList = p'.capture text.toList ∧ ∀ n, p.parse text n = p'.parse text n := by
  have hcapture : p.capture text.toList = p'.capture text.toList := by
    unfold TemplateParser.capture
    rw [h]
  refine ⟨hcapture, fun n => ?_⟩
  unfold TemplateParser.parse
  rw [hcapture]

open Compiling

namespace Template

variable {table : Table} {t : Template} {context context' : ScanContext} {p p' : TemplateParser}

theorem parser_error {e : Error} (h : (t.parser context table).1 = .error e)
    (context' : ScanContext) : (t.parser context' table).1 = .error e := by
  unfold parser at h ⊢
  rcases hrun : t.compile.run (start table) with ⟨_ | root, s⟩
  · rw [hrun] at h
    exact h
  · rw [hrun] at h
    cases h

theorem parser_snd (context context' : ScanContext) :
    (t.parser context table).2 = (t.parser context' table).2 := by
  unfold parser
  rcases t.compile.run (start table) with ⟨_ | root, s⟩ <;> rfl

/-- The context is kept beside the grammars, and compiling does not read it. -/
theorem parser_withContext (h : (t.parser context table).1 = .ok p) (context' : ScanContext) :
    (t.parser context' table).1 = .ok { p with context := context' } := by
  unfold parser at h ⊢
  rcases hrun : t.compile.run (start table) with ⟨_ | root, s⟩
  · rw [hrun] at h
    cases h
  · rw [hrun] at h
    cases h
    rfl

/-- Where every time is shown with its year and its offset, the parts of the template are read the
same in two contexts, given that the records inside are. -/
theorem leaves_context (hf : table.Faithful) (hp : (t.parser context table).1 = .ok p)
    (htyped : Node.EveryAll Node.Typed t.body)
    (htimeless : ∀ key, Requested table.schema t.body key → key.Timeless) (context' : ScanContext)
    {compound compound' : String → Scanner Char Captured}
    (hcompound : ∀ key type children, Requested table.schema t.body key →
      Entry.compile table.schema key = .ok (.compound type children) →
        compound type = compound' type) :
    ∀ v ∈ Grammar.valueLeaves p.root,
      Grammar.valueScanner p.context compound v = Grammar.valueScanner context' compound' v := by
  intro v hv
  rw [(Template.parser_ok hf hp).2, Grammar.valueLeaves, Template.grammar] at hv
  exact leaf_context (Grammar.serves_ofEach [] t.body htyped v (Grammar.leaves_ofBlocks hv))
    (fun key hkey => .shown hkey) htimeless hcompound

/-- A parser and the same one in another context. The items of the repetitions of the template are
read the same, and so are whole texts. -/
theorem scanners_context (hf : table.Faithful) (hp : (t.parser context table).1 = .ok p)
    (htyped : Node.EveryAll Node.Typed t.body)
    (htimeless : ∀ key, Requested table.schema t.body key → key.Timeless) (context' : ScanContext) :
    Grammar.textScanner p.context p.compounds p.root =
        Grammar.textScanner context' p.compounds p.root ∧
      ∀ r ∈ Grammar.valueRegions p.root, p.item r = { p with context := context' }.item r := by
  obtain ⟨s, hcompounds, -, hs, -⟩ := parser_settles hf hp
  have hcompound (fuel : Nat) (key : EntryKey) (type : String) (children : List Node)
      (hkey : Requested table.schema t.body key)
      (hentry : Entry.compile table.schema key = .ok (.compound type children)) :
      Grammar.compoundScanner p.context p.compounds fuel type =
        Grammar.compoundScanner context' p.compounds fuel type := by
    rw [← hcompounds]
    exact compoundScanner_context hs htimeless p.context context' fuel key type children hkey hentry
  have hrecord (key : EntryKey) (type : String) (children : List Node)
      (hkey : Requested table.schema t.body key)
      (hentry : Entry.compile table.schema key = .ok (.compound type children)) :
      p.record type = { p with context := context' }.record type := by
    funext c
    exact congrFun (hcompound (c.rest.length + 1) key type children hkey hentry) c
  constructor
  · funext c
    unfold Grammar.textScanner
    rw [Grammar.valueScanner_congr p.root
      (leaves_context hf hp htyped htimeless context' (hcompound (c.rest.length + 1)))]
  · intro r hr
    exact Grammar.valueScanner_congr r.item fun v hv =>
      leaves_context hf hp htyped htimeless context' hrecord v
        (Grammar.leaves_of_mem_valueRegions p.root hr hv)

/-- Where every time is shown with its year and its offset, it does not matter when and where a text
is read. Two parsers that differ in the clock and the offset capture the same, parse the same, and
refuse the same with the same error, if all repetitions make progress. If one does not, it goes on for
ever with both parsers, wherever it begins. -/
theorem parse_context {kind : TemplateKind} {type : String} {nodes : List Node}
    (hf : table.Faithful) (ht : Template.ofNodes table.schema kind type nodes = .ok t)
    (htimeless : ∀ key, Requested table.schema t.body key → key.Timeless)
    (context context' : ScanContext) :
    (t.parser context table).2 = (t.parser context' table).2 ∧
      ((∃ e, (t.parser context table).1 = .error e ∧ (t.parser context' table).1 = .error e) ∨
        ∃ p p', (t.parser context table).1 = .ok p ∧ (t.parser context' table).1 = .ok p' ∧
          (p.Progresses → p'.Progresses ∧
            ∀ text : String, p.capture text.toList = p'.capture text.toList ∧
              ∀ n, p.parse text n = p'.parse text n) ∧
          (¬ p.Progresses → ∃ r ∈ p.regions, r ∈ p'.regions ∧ ∀ c as last,
            ¬ Loop (p.item r) (exactly r.separator) c as last ∧
              ¬ Loop (p'.item r) (exactly r.separator) c as last)) := by
  refine ⟨parser_snd context context', ?_⟩
  cases hp : (t.parser context table).1 with
  | error e => exact .inl ⟨e, rfl, parser_error hp context'⟩
  | ok p =>
    have hp' := parser_withContext hp context'
    have htyped := Node.EveryAll.mono (fun _ h => h.1) t.body (Template.ofNodes_typed ht)
    obtain ⟨htext, hitem⟩ := scanners_context hf hp htyped htimeless context'
    refine .inr ⟨p, _, rfl, hp', fun hprogresses => ⟨?_, TemplateParser.parse_congr htext⟩,
      fun hstuck => ?_⟩
    · refine (progresses_root_iff hf hp').mpr fun r hr => ?_
      rw [← hitem r hr]
      exact hprogresses r (List.mem_append_left _ hr)
    · rw [progresses_root_iff hf hp, not_forall] at hstuck
      obtain ⟨r, hr⟩ := hstuck
      obtain ⟨hr, hstuck⟩ := Classical.not_imp.mp hr
      have hmem : r ∈ p.regions := List.mem_append_left _ hr
      have hnever (c : Cursor Char) (as : List Captured) (last : Cursor Char) :
          ¬ Loop (p.item r) (exactly r.separator) c as last :=
        Grammar.not_loop_of_not_progresses (parser_guarded hf hp) r.item r.separator hstuck
      refine ⟨r, hmem, hmem, fun c as last => ⟨hnever c as last, ?_⟩⟩
      rw [← hitem r hr]
      exact hnever c as last

end Template

namespace Delivery

def delivery : Declaration := .concept "Delivery" [.plain "due" "DateTime", .plain "slot" "Slot"]

def slot : Declaration := .concept "Slot"
  [⟨"opens", "DateTime", false, false, false, [⟨"Format", ["DD/MM/YY hh:mm A Z"]⟩]⟩]

def schema : Schema := ⟨[delivery, slot]⟩

def nodes : List Node :=
  [.markup .paragraph [.variable (.unbound "due" (some "D MMM YYYY Z")), .text " at ",
    .variable (.unbound "slot" none)]]

def template : Template :=
  ⟨.clause, "Delivery",
    [.markup .paragraph [.variable ⟨"due", some "DateTime", some "D MMM YYYY Z", none, []⟩,
      .text " at ", .variable ⟨"slot", some "Slot", none, none, []⟩]]⟩

theorem ofNodes_eq : Template.ofNodes schema .clause "Delivery" nodes = .ok template :=
  Template.eq_ok_of_equal (by decide +kernel)

def children : List Node :=
  [.text "opens ", .variable ⟨"opens", some "DateTime", some "DD/MM/YY hh:mm A Z", none,
    [⟨"Format", ["DD/MM/YY hh:mm A Z"]⟩]⟩]

theorem compile_slot : Entry.compile schema ⟨"Slot", none⟩ = .ok (.compound "Slot" children) := by
  cbv

theorem not_compound {format : Option String} {type : String} {ns : List Node} :
    Entry.compile schema ⟨"DateTime", format⟩ ≠ .ok (.compound type ns) := by
  intro h
  obtain ⟨d, hd, -⟩ := Entry.compile_compound h
  cases hd

theorem requested_key {key : EntryKey} (h : Requested schema template.body key) :
    key = ⟨"DateTime", some "D MMM YYYY Z"⟩ ∨ key = ⟨"DateTime", some "DD/MM/YY hh:mm A Z"⟩ ∨
      key = ⟨"Slot", none⟩ := by
  induction h with
  | @shown key h =>
    have hor : key = ⟨"DateTime", some "D MMM YYYY Z"⟩ ∨ key = ⟨"Slot", none⟩ := by
      simpa [template, Node.keysAll, Node.keys, Node.text] using h
    exact hor.imp_right .inr
  | inside _ hc h ih =>
    rcases ih with rfl | rfl | rfl
    · exact absurd hc not_compound
    · exact absurd hc not_compound
    · rw [compile_slot] at hc
      cases hc
      exact .inr (.inl (by simpa [children, Node.keysAll, Node.keys, Node.text] using h))

theorem timeless {key : EntryKey} (h : Requested schema template.body key) : key.Timeless := by
  intro htype format hformat
  rcases requested_key h with rfl | rfl | rfl
  · have hcompile : DateTimeFormat.compile (some "D MMM YYYY Z".toList) =
        .ok ⟨DateTimeFormat.tokensOf "D MMM YYYY Z".toList⟩ := by decide +kernel
    cases hcompile.symm.trans hformat
    decide +kernel
  · have hcompile : DateTimeFormat.compile (some "DD/MM/YY hh:mm A Z".toList) =
        .ok ⟨DateTimeFormat.tokensOf "DD/MM/YY hh:mm A Z".toList⟩ := by decide +kernel
    cases hcompile.symm.trans hformat
    decide +kernel
  · exact absurd htype (by decide)

def here : ScanContext := ⟨0, ⟨0, 0, 0⟩⟩

def there : ScanContext := ⟨-18000, ⟨1700000000, 0, 3600⟩⟩

def table : Table := Table.empty schema .standard

def parser (context : ScanContext) : TemplateParser :=
  ⟨context, [("Slot", .record "Slot" none (Grammar.ofInlines schema .clause .standard [] children))],
    .record "Delivery" (some "clauseId") (template.grammar schema .standard)⟩

def accepted : String := "5 Mar 2024 +01:00 at opens 07/03/24 09:15 AM Z"

/-- There is no such day. -/
def refused : String := "30 Feb 2024 +01:00 at opens 07/03/24 09:15 AM Z"

def record : Json := .obj [("$class", .str "Delivery"), ("clauseId", .str (Identifier.numbered 0)),
  ("due", .str "2024-03-05T00:00:00.000+01:00"),
  ("slot", .obj [("$class", .str "Slot"), ("opens", .str "2024-03-07T09:15:00.000Z")])]

def refusal : ParseError := ⟨⟨0, 1, 1⟩, [], none, "invalid date 2024-02-30"⟩

theorem parser_template (context : ScanContext) :
    (template.parser context table).1 = .ok (parser context) := by rfl

theorem progresses : (parser here).Progresses := TemplateParser.progresses_of_regions rfl

theorem parse_accepted : (parser here).parse accepted 0 = .ok record := by
  have hsame : (((parser here).parse accepted 0).toOption.any record.same) = true := by decide +kernel
  cases hparse : (parser here).parse accepted 0 with
  | error e =>
    rw [hparse] at hsame
    cases hsame
  | ok value =>
    rw [hparse] at hsame
    have hexact : record.Exact := by simp [record, Json.Exact, Json.ExactFields]
    rw [hexact.eq_of_same hsame]

theorem parse_refused : (parser here).parse refused 0 = .error (.parse refusal) := by
  have hcapture : (match (parser here).capture refused.toList with
    | .ok _ => false
    | .error e => decide (e = refusal)) = true := by decide +kernel
  unfold TemplateParser.parse
  split at hcapture
  · cases hcapture
  · rename_i e he
    rw [he, of_decide_eq_true hcapture]
    rfl

theorem panel_keys (key : EntryKey) : ¬ Requested Panel.schema Panel.template.body key := by
  intro h
  induction h with
  | shown h => cases h
  | inside _ _ _ ih => exact ih

/-- A time of day that the reader's clock does not show, in the template and in a record that the
template shows, read at two times and places, and a day that there is not. The text of two lights is
read for ever, at all times and places. -/
theorem parse_context_delivery :
    (∀ context, (template.parser context table).1 = .ok (parser context)) ∧
    (parser here).Progresses ∧
    (parser here).parse accepted 0 = .ok record ∧ (parser there).parse accepted 0 = .ok record ∧
    (parser here).parse refused 0 = .error (.parse refusal) ∧
    (parser there).parse refused 0 = .error (.parse refusal) ∧
    ∃ p p', (Panel.template.parser here (Table.empty Panel.schema .standard)).1 = .ok p ∧
      (Panel.template.parser there (Table.empty Panel.schema .standard)).1 = .ok p' ∧
      ∃ r ∈ p.regions, r ∈ p'.regions ∧ ∀ c as last,
        ¬ Loop (p.item r) (exactly r.separator) c as last ∧
          ¬ Loop (p'.item r) (exactly r.separator) c as last := by
  have hf : table.Faithful := Table.faithful_empty schema .standard
  have hpanel := Table.faithful_empty Panel.schema .standard
  obtain ⟨-, ⟨e, he, -⟩ | ⟨p, p', hp, hp', hsame, -⟩⟩ :=
    Template.parse_context hf ofNodes_eq (fun _ => timeless) here there
  · cases (parser_template here).symm.trans he
  cases (parser_template here).symm.trans hp
  cases (parser_template there).symm.trans hp'
  obtain ⟨-, hparse⟩ := hsame progresses
  refine ⟨parser_template, progresses, parse_accepted, ?_, parse_refused, ?_, ?_⟩
  · rw [← (hparse accepted).2 0]
    exact parse_accepted
  · rw [← (hparse refused).2 0]
    exact parse_refused
  · obtain ⟨-, ⟨e, he, -⟩ | ⟨p, p', hp, hp', -, hstuck⟩⟩ := Template.parse_context hpanel
      Panel.ofNodes_eq (fun key hkey => absurd hkey (panel_keys key)) here there
    · cases Panel.parser_template.symm.trans he
    · obtain rfl : Panel.parser = p := Except.ok.inj (Panel.parser_template.symm.trans hp)
      exact ⟨_, p', hp, hp', hstuck Panel.not_progresses⟩

end Delivery

end ClauseTemplates
