import Mathlib
import ClauseTemplates.Proofs.Parsing.Accepted
import ClauseTemplates.Proofs.Sharing.Inquires
import ClauseTemplates.Proofs.Sharing.Memo

namespace ClauseTemplates

/-- What a table is used for. -/
inductive Operation
  | entry (key : EntryKey)
  | parse (t : Template) (context : ScanContext) (text : String) (identifiers : Nat)
  | draft (t : Template) (data : Json) (now : Instant) (identifiers : Nat)

/-- What comes of an operation. -/
inductive Answer
  | entry (found : Except EntryError Entry)
  | value (parsed : Except Error Json)
  | doc (drafted : Except Error Doc)

namespace Operation

/-- The answer, and what the operation leaves of the table. -/
def perform : Operation → Table → Answer × Table
  | entry key, table => (.entry (table.entry key).1, (table.entry key).2)
  | parse t context text identifiers, table =>
    let (parser, table') := t.parser context table
    (.value (parser.bind fun p => p.parse text identifiers), table')
  | draft t data now identifiers, table =>
    let (drafted, s) := (t.draft data now).run ⟨table, identifiers⟩
    (.doc drafted, s.table)

/-- One operation after the other, on one table. -/
def performAll : List Operation → Table → List Answer × Table
  | [], table => ([], table)
  | op :: rest, table =>
    let (answer, table') := op.perform table
    let (answers, table'') := performAll rest table'
    (answer :: answers, table'')

/-- The inquiry does the same as the operation, whatever the cells of the table hold. -/
def Inquires (schema : Schema) (settings : Settings) (op : Operation) (q : Inquiry Answer) : Prop :=
  ∀ table : Table, table.schema = schema → table.settings = settings → op.perform table = q.run table

variable (schema : Schema) (settings : Settings)

theorem exists_inquires : ∀ op : Operation, ∃ q, op.Inquires schema settings q
  | entry key => ⟨.ask key fun answer => .done (.entry answer), fun _ _ _ => rfl⟩
  | parse t context text identifiers => by
    obtain ⟨q, hq⟩ := t.inquires_compile schema settings ⟨[], [], []⟩
    let answer (outcome : Except EntryError ValueGrammar × Compiling.Progress) : Answer :=
      match outcome with
      | (.ok root, p) => .value ((⟨context, p.compounds, root⟩ : TemplateParser).parse text identifiers)
      | (.error e, _) => .value (.error (.registry e))
    refine ⟨q.map answer, fun table hschema hsettings => ?_⟩
    have hrun : t.compile.run (Compiling.start table) = _ := hq table hschema hsettings
    unfold perform Template.parser
    dsimp only
    rw [hrun, Inquiry.run_map]
    rcases q.run table with ⟨⟨_ | _, _⟩, _⟩ <;> rfl
  | draft t data now identifiers => by
    obtain ⟨q, hq⟩ := t.inquires_draft data now schema settings identifiers
    refine ⟨q.map fun outcome => .doc outcome.1, fun table hschema hsettings => ?_⟩
    have hrun : (t.draft data now).run ⟨table, identifiers⟩ = _ := hq table hschema hsettings
    unfold perform
    dsimp only
    rw [hrun, Inquiry.run_map]
    rfl

variable {schema : Schema} {settings : Settings}

/-- What holds of every table that operations left behind. -/
structure Shared (schema : Schema) (settings : Settings) (table : Table) : Prop where
  schema : table.schema = schema
  settings : table.settings = settings
  faithful : table.Faithful
  nodup : table.keys.Nodup

theorem shared_empty : Shared schema settings (Table.empty schema settings) :=
  ⟨rfl, rfl, Table.faithful_empty schema settings, List.nodup_nil⟩

variable {table : Table}

/-- One operation: the answer is that of its inquiry, its keys are added, and entries are kept. -/
theorem perform_inquires {op : Operation} {q : Inquiry Answer} (hq : op.Inquires schema settings q)
    (h : Shared schema settings table) :
    (op.perform table).1 = q.result schema ∧ table.Kept (op.perform table).2 ∧
      Shared schema settings (op.perform table).2 ∧
      (op.perform table).2.keys.toFinset = table.keys.toFinset ∪ (q.keys schema).toFinset := by
  obtain ⟨hschema, hsettings, hfaithful, hnodup⟩ := h
  rw [hq table hschema hsettings]
  obtain ⟨hresult, hfaithful'⟩ := q.run_faithful table hfaithful
  obtain ⟨hnodup', hkeys⟩ := q.keys_run table hfaithful hnodup
  have hkept := q.kept_run table
  rw [hschema] at hresult hkeys
  exact ⟨hresult, hkept, ⟨hkept.schema.trans hschema, hkept.settings.trans hsettings, hfaithful',
    hnodup'⟩, hkeys⟩

/-- An operation does not notice what the table was used for before. -/
theorem perform_fresh (op : Operation) (h : Shared schema settings table) :
    (op.perform table).1 = (op.perform (Table.empty schema settings)).1 := by
  obtain ⟨q, hq⟩ := op.exists_inquires schema settings
  exact (perform_inquires hq h).1.trans (perform_inquires hq shared_empty).1.symm

theorem performAll_fresh (ops : List Operation) : ∀ {table : Table}, Shared schema settings table →
    (performAll ops table).1 = ops.map (fun op => (op.perform (Table.empty schema settings)).1) ∧
      table.Kept (performAll ops table).2 ∧ Shared schema settings (performAll ops table).2 := by
  induction ops with
  | nil => exact fun h => ⟨rfl, .refl _, h⟩
  | cons op rest ih =>
    intro table h
    obtain ⟨q, hq⟩ := op.exists_inquires schema settings
    obtain ⟨-, hkept, hshared, -⟩ := perform_inquires hq h
    obtain ⟨hanswers, hrest, hall⟩ := ih hshared
    refine ⟨?_, hkept.trans hrest, hall⟩
    rw [performAll, List.map_cons, ← perform_fresh op h, ← hanswers]

theorem keys_performAll {ops : List Operation} {qs : List (Inquiry Answer)}
    (hqs : List.Forall₂ (Inquires schema settings) ops qs) : ∀ {table : Table},
    Shared schema settings table → (performAll ops table).2.keys.toFinset =
      table.keys.toFinset ∪ (qs.flatMap (·.keys schema)).toFinset := by
  induction hqs with
  | nil => exact fun _ => by simp [performAll]
  | cons hq _ ih =>
    intro table h
    obtain ⟨-, -, hshared, hkeys⟩ := perform_inquires hq h
    have hrest := ih hshared
    rw [performAll, List.flatMap_cons, List.toFinset_append, ← Finset.union_assoc, ← hkeys]
    exact hrest

/-- An entry that was handed out stays in its cell, and later requests give it out again. -/
theorem entry_stays (h : Shared schema settings table) {key : EntryKey} {e : Entry}
    (he : (table.entry key).1 = .ok e) : ∃ i : Nat, ∀ later : List Operation,
      let table' := (performAll later (table.entry key).2).2
      table'.cells[i]? = some (key, some e) ∧ table'.entry key = (.ok e, table') := by
  obtain ⟨q, hq⟩ := (Operation.entry key).exists_inquires schema settings
  have hshared : Shared schema settings (table.entry key).2 := (perform_inquires hq h).2.2.1
  have hcached := Table.cached_of_entry he
  obtain ⟨i, hi⟩ := Table.cell_of_cached hcached
  refine ⟨i, fun later => ?_⟩
  have hkept := (performAll_fresh later hshared).2.1
  exact ⟨hkept.cells i key e hi, Table.entry_of_cached (hkept.cached key e hcached)⟩

theorem size_eq_card (h : table.keys.Nodup) : table.size = table.keys.toFinset.card := by
  rw [List.toFinset_card_of_nodup h]
  exact (List.length_map ..).symm

theorem exists_inquiries (schema : Schema) (settings : Settings) (ops : List Operation) :
    ∃ qs, List.Forall₂ (Inquires schema settings) ops qs := by
  induction ops with
  | nil => exact ⟨[], .nil⟩
  | cons op rest ih =>
    obtain ⟨q, hq⟩ := op.exists_inquires schema settings
    obtain ⟨qs, hqs⟩ := ih
    exact ⟨q :: qs, .cons hq hqs⟩

/-- What operations left in a table cannot be noticed: each operation answers as on a table of its
own. An entry that was handed out stays in its cell and is handed out again, and there are as many
cells as keys were requested, also those that have no entry. What a parser keeps for the types of
records cannot be noticed either. -/
theorem performAll_shared (schema : Schema) (settings : Settings) (ops : List Operation) :
    let fresh := Table.empty schema settings
    let table := (performAll ops fresh).2
    (performAll ops fresh).1 = ops.map (fun op => (op.perform fresh).1) ∧
    (∀ key e, (table.entry key).1 = .ok e → ∃ i : Nat, ∀ later : List Operation,
      let table' := (performAll later (table.entry key).2).2
      table'.cells[i]? = some (key, some e) ∧ table'.entry key = (.ok e, table')) ∧
    (∃ qs, List.Forall₂ (Inquires schema settings) ops qs) ∧
    (∀ qs, List.Forall₂ (Inquires schema settings) ops qs →
      table.size = (qs.flatMap (·.keys schema)).toFinset.card) ∧
    ∀ t context p table', Template.parser t context table = (.ok p, table') →
      t.Memoized schema settings p := by
  intro fresh table
  have hfresh : Shared schema settings fresh := shared_empty
  obtain ⟨hanswers, -, hshared⟩ := performAll_fresh ops hfresh
  refine ⟨hanswers, fun key e => entry_stays hshared, exists_inquiries schema settings ops,
    fun qs hqs => ?_, fun t context p table' hp => ?_⟩
  · have hkeys := keys_performAll hqs shared_empty
    have hempty : fresh.keys.toFinset = ∅ := rfl
    rw [size_eq_card hshared.nodup, hkeys, hempty, Finset.empty_union]
  · have hmemo := t.parser_memoized hshared.faithful hp
    rwa [hshared.schema, hshared.settings] at hmemo

end Operation

namespace Repeated

def schema : Schema :=
  ⟨[.concept "Holder" [.plain "pair" "Pair"], .concept "Pair" [.plain "left" "String"]]⟩

def template : Template :=
  ⟨.clause, "Holder", [.markup .paragraph [.variable ⟨"pair", some "Pair", none, none, []⟩]]⟩

def context : ScanContext := ⟨0, ⟨0, 0, 0⟩⟩

def text : String := "left \x22x\x22"

def data : Json := .obj [("pair", .obj [("left", .str "x")])]

def pair : EntryKey := ⟨"Pair", none⟩

def children : List Node := [.text "left ", .variable ⟨"left", some "String", none, none, []⟩]

def record : Json := .obj [("$class", .str "Holder"), ("clauseId", .str (Identifier.numbered 0)),
  ("pair", .obj [("$class", .str "Pair"), ("left", .str "x")])]

def requests : List Operation := [.entry pair, .entry ⟨"Absent", none⟩,
  .parse template context text 0, .draft template data ⟨0, 0, 0⟩ 0]

def fresh : Table := Table.empty schema .standard

/-- What is left of a table where every request was made twice. -/
def table : Table := (Operation.performAll (requests ++ requests) fresh).2

def parser : TemplateParser :=
  ⟨context, [("Pair", .record "Pair" none (Grammar.ofInlines schema .clause .standard [] children))],
    .record "Holder" (some "clauseId") (template.grammar schema .standard)⟩

theorem parser_fresh : (template.parser context fresh).1 = .ok parser := by rfl

theorem parse_text : parser.parse text 0 = .ok record := by cbv

theorem draft_data : ∃ doc s, (template.draft data ⟨0, 0, 0⟩).run ⟨fresh, 0⟩ = (.ok doc, s) ∧
    Markdown.render '-' [doc] = text := ⟨_, _, by cbv, by cbv⟩

theorem size_table : table.size = 3 := by decide +kernel

theorem shared_table : Operation.Shared schema .standard table :=
  (Operation.performAll_fresh (requests ++ requests) Operation.shared_empty).2.2

theorem compile_pair : Entry.compile schema pair = .ok (.compound "Pair" children) := by cbv

theorem entry_table : (table.entry pair).1 = .ok (.compound "Pair" children) := by
  rw [(Table.entry_faithful shared_table.faithful pair).1, shared_table.schema]
  exact compile_pair

theorem parser_table : ∃ p table', template.parser context table = (.ok p, table') := by
  have hok : (template.parser context table).1.isOk = true := by decide +kernel
  rcases hrun : template.parser context table with ⟨e | p, table'⟩
  · rw [hrun] at hok
    cases hok
  · exact ⟨p, table', rfl⟩

def answers (doc : Doc) : List Answer :=
  [.entry (.ok (.compound "Pair" children)), .entry (.error (.unknownParser "Absent")),
    .value (.ok record), .doc (.ok doc)]

theorem perform_parse :
    ((Operation.parse template context text 0).perform fresh).1 = .value (.ok record) := by
  have hanswer (t : Template) (table : Table) (text : String) :
      ((Operation.parse t context text 0).perform table).1 =
        .value ((t.parser context table).1.bind fun p => p.parse text 0) := rfl
  rw [hanswer, parser_fresh, Except.bind, parse_text]

theorem perform_requests {doc : Doc} {s : DraftState}
    (h : (template.draft data ⟨0, 0, 0⟩).run ⟨fresh, 0⟩ = (.ok doc, s)) :
    requests.map (fun op => (op.perform fresh).1) = answers doc := by
  have hpair : ((Operation.entry pair).perform fresh).1 = .entry (.ok (.compound "Pair" children)) := by
    rfl
  have habsent : ((Operation.entry ⟨"Absent", none⟩).perform fresh).1 =
      .entry (.error (.unknownParser "Absent")) := by rfl
  have hdraft : ((Operation.draft template data ⟨0, 0, 0⟩ 0).perform fresh).1 = .doc (.ok doc) := by
    change Answer.doc ((template.draft data ⟨0, 0, 0⟩).run ⟨fresh, 0⟩).1 = _
    rw [h]
  simp only [requests, List.map_cons, List.map_nil, hpair, habsent, perform_parse, hdraft, answers]

/-- A record type, a type that is not declared, a text and some data: each is asked of one table
twice. The answers are those of a table of its own, the second time as well, and there are cells for
the two types and the one inside. -/
theorem performAll_shared_repeated :
    (∃ doc, Markdown.render '-' [doc] = text ∧
      (Operation.performAll (requests ++ requests) fresh).1 = answers doc ++ answers doc) ∧
    table.size = 3 ∧
    (∃ i : Nat, ∀ later, (Operation.performAll later (table.entry pair).2).2.cells[i]? =
      some (pair, some (.compound "Pair" children))) ∧
    ∃ p table', template.parser context table = (.ok p, table') ∧ "Pair" ∈ p.compounds.map (·.1) ∧
      template.Memoized schema .standard p := by
  obtain ⟨hanswers, hcells, -, -, hmemo⟩ :=
    Operation.performAll_shared schema .standard (requests ++ requests)
  obtain ⟨doc, s, hdraft, hdoc⟩ := draft_data
  obtain ⟨p, table', hp⟩ := parser_table
  obtain ⟨i, hi⟩ := hcells pair _ entry_table
  have hmemo := hmemo template context p table' hp
  refine ⟨⟨doc, hdoc, ?_⟩, size_table, ⟨i, fun later => (hi later).1⟩, p, table', hp, ?_, hmemo⟩
  · rw [← perform_requests hdraft, ← List.map_append]
    exact hanswers
  · exact hmemo.1 pair (by simp [template, Node.keysAll, Node.keys, pair]) "Pair" children compile_pair

end Repeated

end ClauseTemplates
