import ClauseTemplates.Proofs.Grammar.Compiles
import ClauseTemplates.Proofs.Grammar.Folding
import ClauseTemplates.Proofs.Grammar.Reading
import ClauseTemplates.Proofs.Grammar.Spelling
import ClauseTemplates.Template

namespace ClauseTemplates

open Json

theorem Compiling.stands_start {table : Table} (h : table.Faithful) :
    Stands table.schema table.settings [] (start table) := ⟨rfl, rfl, h, rfl⟩

/-- The grammar of the body of a template. -/
def Template.grammar (t : Template) (schema : Schema) (settings : Settings) : Grammar :=
  Grammar.ofBlocks [] (Grammar.ofEach schema t.kind settings [] t.body)

theorem Template.parser_ok {t : Template} {context : ScanContext} {table : Table}
    {p : TemplateParser} (hf : table.Faithful) (h : (t.parser context table).1 = .ok p) :
    p.context = context ∧ p.root = .record t.type (some (t.identifier table.settings))
      (t.grammar table.schema table.settings) := by
  have hc : Makes (Compiling.Stands table.schema table.settings []) t.compile
      (.record t.type (some (t.identifier table.settings))
        (t.grammar table.schema table.settings)) := by
    refine Makes.get_bind fun s hs => ?_
    dsimp only
    rw [hs.schema, hs.settings]
    refine Makes.bind ?_ (makes_pure _)
    exact Compiling.makes_inBlocks (Compiling.makes_each t.kind
      (fun nesting => Compiling.makes_compound t.kind _ nesting) t.body [])
  unfold Template.parser at h
  rcases hr : t.compile.run (Compiling.start table) with ⟨e | root, s⟩
  · rw [hr] at h
    cases h
  · rw [hr] at h
    cases h
    exact ⟨rfl, (hc _ root s (Compiling.stands_start hf) hr).1⟩

theorem Template.parser_of_compiles {t : Template} (context : ScanContext) {table : Table}
    (hf : table.Faithful) (h : Node.CompilesAll table.schema t.body) :
    ∃ p, (t.parser context table).1 = .ok p := by
  have hc : Always (Compiling.Stands table.schema table.settings []) t.compile
      (.record t.type (some (t.identifier table.settings))
        (t.grammar table.schema table.settings)) := by
    refine Always.get_bind fun s hs => ?_
    dsimp only
    rw [hs.schema, hs.settings]
    exact (Compiling.always_inBlocks (Compiling.always_each t.kind t.body [] h)).bind (always_pure _)
  obtain ⟨s, hrun, _⟩ := hc _ (Compiling.stands_start hf)
  unfold Template.parser
  rw [show _ = _ from hrun]
  exact ⟨_, rfl⟩

theorem TemplateParser.parse_eq_ok {p : TemplateParser} {text : String} {n : Nat} {value : Json} :
    p.parse text n = .ok value ↔ ∃ captured m, p.capture text.toList = .ok captured ∧
      (captured.fold text.toList).run n = .ok (value, m) := by
  unfold TemplateParser.parse
  rw [bind_eq_ok]
  refine exists_congr fun captured => ?_
  rw [mapError_eq_ok, bind_eq_ok]
  constructor
  · rintro ⟨hc, ⟨v, m⟩, hf, h⟩
    cases h
    exact ⟨m, hc, mapError_eq_ok.mp hf⟩
  · rintro ⟨m, hc, hf⟩
    exact ⟨hc, (value, m), mapError_eq_ok.mpr hf, rfl⟩

theorem TemplateParser.capture_eq_ok {p : TemplateParser} {text : List Char} {captured : Captured} :
    p.capture text = .ok captured ↔
      Scanner.run (Grammar.textScanner p.context p.compounds p.root) text = .ok captured := by
  unfold TemplateParser.capture
  split
  · rename_i h
    rw [h, Except.ok.injEq, Except.ok.injEq]
  · rename_i h
    rw [h]
    constructor <;> rintro ⟨⟩

/-- An accepted text is read by the grammar of the template up to blanks at its end, and the record is
made of the slots. -/
theorem Template.read_of_parse {t : Template} {context : ScanContext} {table : Table}
    {p : TemplateParser} {text : String} {n : Nat} {value : Json} (hf : table.Faithful)
    (hp : (t.parser context table).1 = .ok p) (hv : p.parse text n = .ok value) :
    ∃ slots next fields k,
      p.capture text.toList = .ok (.record t.type (some (t.identifier table.settings)) slots) ∧
      Scanner.read? ((t.grammar table.schema table.settings).scanner context
        (Grammar.compoundScanner context p.compounds (text.toList.length + 1)))
        (Scan.Cursor.start text.toList) = some (slots, next) ∧ Text.allBlank next.rest = true ∧
      (Captured.foldSlots text.toList [("$class", .str t.type)] slots).run n = .ok (fields, k) ∧
      value = .obj (Captured.identified (some (t.identifier table.settings)) fields k).1 := by
  obtain ⟨hctx, hroot⟩ := Template.parser_ok hf hp
  obtain ⟨captured, m, hc, hfold⟩ := TemplateParser.parse_eq_ok.mp hv
  have hscan := TemplateParser.capture_eq_ok.mp hc
  rw [hctx, hroot, Grammar.textScanner_iff] at hscan
  obtain ⟨next, hread, hblanks⟩ := hscan
  rw [Grammar.read?_record] at hread
  obtain ⟨⟨slots, last⟩, hslots, heq⟩ := Option.map_eq_some_iff.mp hread
  cases heq
  obtain ⟨fields, k, hfields, rfl, _⟩ := Captured.run_fold_record.mp hfold
  exact ⟨slots, last, fields, k, hc, hslots, hblanks, hfields, rfl⟩

/-- An accepted text is spelled by the grammar of the template, up to blanks at its end, and the
record is made of the slots. -/
theorem Template.spelled {t : Template} {context : ScanContext} {table : Table}
    {p : TemplateParser} {text : String} {n : Nat} {value : Json} (hf : table.Faithful)
    (hp : (t.parser context table).1 = .ok p) (hv : p.parse text n = .ok value) :
    ∃ w blanks compound slots fields k, text.toList = w ++ blanks ∧ Text.allBlank blanks = true ∧
      (t.grammar table.schema table.settings).Spells context compound w slots ∧
      (Captured.foldSlots text.toList [("$class", .str t.type)] slots).run n = .ok (fields, k) ∧
      value = .obj (Captured.identified (some (t.identifier table.settings)) fields k).1 := by
  obtain ⟨slots, next, fields, k, _, hread, hblanks, hfields, hvalue⟩ := Template.read_of_parse hf hp hv
  obtain ⟨w, hw, hs⟩ := Grammar.scanner_spells (Grammar.advances_compoundScanner p.compounds _) _ _ _ _ hread
  exact ⟨w, next.rest, _, slots, fields, k, hw.1, hblanks, hs, hfields, hvalue⟩

end ClauseTemplates
