import Mathlib
import ClauseTemplates.Proofs.Passage.Reading

namespace ClauseTemplates

open Markdown Drafting

/-- The parser of a clause template accepts its drafts, whichever clauses are left out: each clause that
is left out takes its separator along. -/
theorem Template.parse_passages {t : Template} {table : Table} {ps : List Passage}
    (hkind : t.kind = .clause) (hbody : t.body = Passage.nodes ps)
    (hlines : Passage.Distinct (Passage.linesAll table.settings.bullet ps)) (htight : Passage.TightAll ps)
    (hnames : (ps.filterMap Passage.name?).Nodup) (hclass : "$class" ∉ ps.filterMap Passage.name?)
    (hapart : Passage.ApartAll ps) (hf : table.Faithful) (scan : ScanContext) :
    ∃ p, (t.parser scan table).1 = .ok p ∧
      ∀ (data : Json) (now : Instant) (s s' : DraftState) (doc : Doc) (n : Nat),
        Ready table.schema table.settings s → (t.draft data now).run s = (.ok doc, s') →
        ∃ value, p.parse (render table.settings.bullet [doc]) n = .ok value := by
  obtain ⟨p, hp⟩ := t.parser_of_compiles scan hf (hbody ▸ Passage.compilesAll table.schema ps)
  refine ⟨p, hp, fun data now s s' doc n hs hdraft => ?_⟩
  obtain ⟨ts, hts, hw⟩ := Template.texts_of_draft table.settings.bullet hs hdraft
  rw [hbody] at hts
  have hreads (scanner : String → Scanner Char Captured) (hc : ∀ type, (scanner type).Advances) :
      ∃ slots, Slot.Settled (ps.filterMap Passage.name?) slots ∧
        Grammar.Reads scan scanner (t.grammar table.schema table.settings) [] (blockText [] ts) slots := by
    obtain ⟨slots, hsettled, hfirst, _⟩ :=
      @Passage.reads_blocks table.schema table.settings scan scanner _ _ hc hkind ps data ts [] htight
        hapart hlines (Or.inl rfl) hts
    refine ⟨slots, hsettled, ?_⟩
    have hread := hfirst (Or.inr rfl)
    rw [Template.grammar, hkind, hbody]
    exact hread
  obtain ⟨captured, shown, hcapture, hsettled, hshown⟩ := Template.capture_of_reads hf hp rfl hreads
  rw [List.append_nil] at hcapture
  obtain ⟨value, m, hvalue⟩ := hsettled.settles_record hnames hclass t.type
    (some (t.identifier table.settings)) [] n
  rw [← hshown] at hvalue
  have hfold : (captured.fold (blockText [] ts)).run n = .ok (value, m) :=
    (Captured.run_fold_unplaced captured n m value).mpr hvalue
  refine ⟨value, TemplateParser.parse_eq_ok.mpr ⟨captured, m, ?_, ?_⟩⟩
  · rw [render_singleton, hw, String.toList_ofList]
    exact hcapture
  · rw [render_singleton, hw, String.toList_ofList]
    exact hfold

namespace Annex

def schema : Schema :=
  ⟨[.concept "Annex" [.plain "gap" "Gap", .plain "part" "Part"], .concept "Gap" [],
    .concept "Part" [.plain "note" "Gap"]]⟩

def line (s : String) : Passage :=
  .paragraph [.leaf (.text s)] ⟨rfl, trivial⟩ ⟨trivial, trivial⟩

def passages : List Passage :=
  [line "A", .clause "gap" "Gap" none none [],
    .clause "part" "Part" none none [line "B", .clause "note" "Gap" none (some "false") [line "C"]]]

def template : Template := ⟨.clause, "Annex", Passage.nodes passages⟩

def record : Json := .obj [("gap", .obj []), ("part", .obj [("note", .obj [])])]

def context : ScanContext := ⟨0, ⟨0, 0, 0⟩⟩

set_option maxRecDepth 100000 in
theorem drafts : ∃ doc s', (template.draft record ⟨0, 0, 0⟩).run ⟨Table.empty schema .standard, 0⟩ =
    (.ok doc, s') ∧ render '-' [doc] = "A\n\nB" := ⟨_, _, by cbv, by cbv⟩

theorem lines_eq : Passage.linesAll '-' passages = [['A'], ['B'], ['C']] := by cbv

theorem distinct : Passage.Distinct (Passage.linesAll '-' passages) := by
  rw [lines_eq]
  exact ⟨by decide, by decide⟩

/-- A clause without blocks and one whose condition does not hold are left out. -/
theorem parse_passages_annex : ∃ p,
    (template.parser context (Table.empty schema .standard)).1 = .ok p ∧
      ∃ value, p.parse "A\n\nB" 0 = .ok value := by
  have htight : Passage.TightAll passages := by
    simp [passages, line, Passage.TightAll, Passage.Tight, Passage.Filled, Passage.SolidAny,
      Passage.Solid, Passage.Elidable, Passage.node, Passage.nodes, Compiling.isElidable]
  have hapart : Passage.ApartAll passages := by
    simp [passages, line, Passage.ApartAll, Passage.Apart, List.filterMap_cons, Passage.name?]
  obtain ⟨p, hp, hparse⟩ := @Template.parse_passages template (Table.empty schema .standard) passages rfl
    rfl distinct htight (by decide) (by decide) hapart (Table.faithful_empty schema .standard) context
  obtain ⟨doc, s', hdraft, htext⟩ := drafts
  have hvalue := hparse record ⟨0, 0, 0⟩ _ s' doc 0 ⟨rfl, rfl, Table.faithful_empty schema .standard⟩ hdraft
  change ∃ value, p.parse (render '-' [doc]) 0 = .ok value at hvalue
  rw [htext] at hvalue
  exact ⟨p, hp, hvalue⟩

end Annex

end ClauseTemplates
