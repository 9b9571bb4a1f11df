import ClauseTemplates.Proofs.Parsing.Nested

namespace ClauseTemplates

open Scan Scanner Compiling

namespace Template

variable {t : Template} {context : ScanContext} {table : Table} {p : TemplateParser}

/-- A template has a parser where all entries that it requests are there, also those that the
records of some types request. -/
theorem parser_of_entries (context : ScanContext) (hf : table.Faithful) {among : String → Prop}
    (hamong : ∀ type children, among type →
      Entry.compile table.schema ⟨type, none⟩ = .ok (.compound type children) →
      ∀ key ∈ Node.keysAll children, (succeeds table.schema among).keys key)
    (hfits : Node.EveryAll (succeeds table.schema among).Fits t.body)
    (hkeys : ∀ key ∈ Node.keysAll t.body, (succeeds table.schema among).keys key) :
    ∃ p, (t.parser context table).1 = .ok p := by
  let fuel := table.schema.declarations.length + 1
  let records := levels t.kind (fun _ _ => pure ()) fuel
  have hc (key : EntryKey) (type : String) (children : List Node)
      (hkey : (succeeds table.schema among).keys key)
      (hentry : (succeeds table.schema among).entries key (.compound type children)) :
      (succeeds table.schema among).Holds [key] (records type children) (records type children) := by
    obtain ⟨e, he, htype⟩ := hkey
    obtain rfl : e = .compound type children := Except.ok.inj (he.symm.trans hentry)
    exact succeeds_levels hamong fuel key type children (htype type children rfl) hentry
  have hblocks := Logic.inBlocks
    ((succeeds table.schema among).eachBlock t.kind hc t.body hfits hkeys)
  obtain ⟨body, s, hbody, -⟩ := hblocks (start table) ⟨rfl, hf⟩
  have hlevels := t.compileWith_levels hf (fun _ _ => pure ()) (Nat.lt_succ_self _)
  have hrun : (Compiling.inBlocks (eachBlock t.kind records t.body)).run (start table) =
      (.ok body, s) := hbody
  unfold compileWith at hlevels
  rw [run_get_bind, run_bind, hrun] at hlevels
  unfold parser
  rw [← hlevels]
  exact ⟨_, rfl⟩

/-- A parser keeps the template of every type that the template shows records of, and with it those
of the types that these records show. -/
theorem parser_keeps (hf : table.Faithful) (hp : (t.parser context table).1 = .ok p) :
    (∀ key ∈ Node.keysAll t.body, ∀ type children,
      Entry.compile table.schema key = .ok (.compound type children) →
      type ∈ p.compounds.map (·.1)) ∧
    ∀ type ∈ p.compounds.map (·.1), ∃ children,
      Entry.compile table.schema ⟨type, none⟩ = .ok (.compound type children) ∧
      p.compounds.lookup type =
        some (.record type none (Grammar.ofInlines table.schema t.kind table.settings [] children)) ∧
      ∀ key ∈ Node.keysAll children, ∀ other members,
        Entry.compile table.schema key = .ok (.compound other members) →
        other ∈ p.compounds.map (·.1) := by
  obtain ⟨s, hcompounds, hdone, hs, hsettled⟩ := parser_settles hf hp
  rw [← hcompounds]
  refine ⟨fun key hkey type children hentry => mem_of_settled hdone (hsettled key hkey) hentry,
    fun type htype => ?_⟩
  obtain ⟨g, hlookup, children, hentry, rfl, hkeys⟩ := hs.lookup htype
  exact ⟨children, hentry, hlookup, fun key hkey other members hother =>
    mem_of_settled hdone (hkeys key hkey) hother⟩

end Template

namespace TemplateParser

variable {p : TemplateParser}

/-- Records are read by the grammar that the parser keeps for their type. -/
theorem read?_record (hg : Grammar.Guarded p.context p.compounds) {type : String} {g : ValueGrammar}
    (h : p.compounds.lookup type = some g) (c : Cursor Char) :
    read? (p.record type) c = read? (Grammar.valueScanner p.context p.record g) c := by
  have hrecord : p.record type = Grammar.recordOf p.context p.compounds p.record type :=
    congrFun (Grammar.recordOf_recordScanner hg).symm type
  have hlookup : Grammar.recordOf p.context p.compounds p.record type =
      Grammar.valueScanner p.context p.record g := by
    rw [Grammar.recordOf, h]
  rw [hrecord, hlookup]

end TemplateParser

/-- A text is accepted where the grammar of the template reads it up to blanks at its end and the slots
agree. -/
theorem Template.parse_eq_ok {t : Template} {context : ScanContext} {table : Table}
    {p : TemplateParser} (hf : table.Faithful) (hp : (t.parser context table).1 = .ok p)
    {text : String} {n : Nat} {value : Json} :
    p.parse text n = .ok value ↔ ∃ slots next fields k,
      read? ((t.grammar table.schema table.settings).scanner p.context p.record)
        (Cursor.start text.toList) = some (slots, next) ∧ Text.allBlank next.rest = true ∧
      (Captured.foldSlots text.toList [("$class", .str t.type)] slots).run n = .ok (fields, k) ∧
      value = .obj (Captured.identified (some (t.identifier table.settings)) fields k).1 := by
  obtain ⟨-, hroot⟩ := Template.parser_ok hf hp
  have hscan (captured : Captured) : p.capture text.toList = .ok captured ↔ ∃ slots next,
      captured = .record t.type (some (t.identifier table.settings)) slots ∧
      read? ((t.grammar table.schema table.settings).scanner p.context p.record)
        (Cursor.start text.toList) = some (slots, next) ∧ Text.allBlank next.rest = true := by
    have hwhole : read? (Grammar.valueScanner p.context
          (Grammar.compoundScanner p.context p.compounds (text.toList.length + 1)) p.root)
          (Cursor.start text.toList) =
        read? (Grammar.valueScanner p.context p.record p.root) (Cursor.start text.toList) :=
      congrArg Scan.Outcome.result?
        (p.valueScanner_root (Template.parser_guarded hf hp) (Cursor.start text.toList))
    rw [TemplateParser.capture_eq_ok, Grammar.textScanner_iff, hwhole, hroot, Grammar.read?_record]
    constructor
    · rintro ⟨next, hread, hblanks⟩
      obtain ⟨⟨slots, last⟩, hslots, heq⟩ := Option.map_eq_some_iff.mp hread
      cases heq
      exact ⟨slots, last, rfl, hslots, hblanks⟩
    · rintro ⟨slots, next, rfl, hslots, hblanks⟩
      exact ⟨next, by rw [hslots]; rfl, hblanks⟩
  rw [TemplateParser.parse_eq_ok]
  constructor
  · rintro ⟨captured, m, hcaptured, hfold⟩
    obtain ⟨slots, next, rfl, hslots, hblanks⟩ := (hscan captured).mp hcaptured
    obtain ⟨fields, k, hfields, rfl, -⟩ := Captured.run_fold_record.mp hfold
    exact ⟨slots, next, fields, k, hslots, hblanks, hfields, rfl⟩
  · rintro ⟨slots, next, fields, k, hslots, hblanks, hfields, rfl⟩
    exact ⟨_, _, (hscan _).mpr ⟨slots, next, rfl, hslots, hblanks⟩,
      Captured.run_fold_record.mpr ⟨fields, k, hfields, rfl, rfl⟩⟩

end ClauseTemplates
