import ClauseTemplates.Proofs.Grammar.Idle
import ClauseTemplates.Proofs.Parsing.Nested
import ClauseTemplates.Proofs.Template.Equality

namespace ClauseTemplates

open Scan Scanner

/-- The repetitions of a parser: those of the template, and those of the records of compound types. -/
def TemplateParser.regions (p : TemplateParser) : List Region :=
  Grammar.valueRegions p.root ++ p.compounds.flatMap fun entry => Grammar.valueRegions entry.2

/-- The rounds of all repetitions make progress, so that each repetition ends. -/
def TemplateParser.Progresses (p : TemplateParser) : Prop :=
  ∀ r ∈ p.regions, Scanner.Progresses (p.item r) (exactly r.separator)

theorem TemplateParser.progresses_of_regions {p : TemplateParser} (h : p.regions = []) :
    p.Progresses := by
  intro r hr
  rw [h] at hr
  cases hr

namespace Template

variable {t : Template} {context : ScanContext} {table : Table} {p : TemplateParser}

/-- What holds of the joins of a template and of repetitions with a separator holds of the
repetitions of its parser. -/
theorem parser_regions {P : Region → Prop} (hf : table.Faithful)
    (hp : (t.parser context table).1 = .ok p) (hbody : Node.EveryAll (Node.Joins P) t.body)
    (hseparated : ∀ r, r.separator ≠ [] → P r) : ∀ r ∈ p.regions, P r := by
  intro r hr
  rcases List.mem_append.mp hr with hroot | hstored
  · obtain ⟨-, heq⟩ := Template.parser_ok hf hp
    rw [heq, Grammar.valueRegions] at hroot
    have hlist := Region.listed_of_separator hseparated
    exact Grammar.regions_ofBlocks [] (Grammar.regions_ofEach hlist [] t.body hbody) r hroot
  · obtain ⟨⟨type, g⟩, hg, hr⟩ := List.mem_flatMap.mp hstored
    exact hseparated r (parser_separators hf hp hg r hr)

/-- Those of the records of compound types always make progress. -/
theorem progresses_root_iff (hf : table.Faithful) (hp : (t.parser context table).1 = .ok p) :
    p.Progresses ↔
      ∀ r ∈ Grammar.valueRegions p.root, Progresses (p.item r) (exactly r.separator) := by
  constructor
  · exact fun h r hr => h r (List.mem_append_left _ hr)
  · intro h r hr
    rcases List.mem_append.mp hr with hroot | hstored
    · exact h r hroot
    · obtain ⟨⟨type, g⟩, hg, hr⟩ := List.mem_flatMap.mp hstored
      exact progresses_exactly (parser_separators hf hp hg r hr) (p.advances_item r)

/-- Rounds of a repetition make progress, so that it ends, unless the markup leaves out the separator
of a join whose items accept the empty text: then they go on for ever. Lists always have lines between
their items. -/
theorem parser_progresses_iff (hf : table.Faithful) (hp : (t.parser context table).1 = .ok p) :
    (∀ r ∈ p.regions, (r.nonempty = true → r.separator ≠ []) ∧
      (Progresses (p.item r) (exactly r.separator) ↔
        r.separator ≠ [] ∨ read? (p.item r) (Cursor.start []) = none) ∧
      (¬ Progresses (p.item r) (exactly r.separator) →
        ∀ c as last, ¬ Loop (p.item r) (exactly r.separator) c as last)) ∧
    (Node.EveryAll (Node.Joins fun r => r.separator ≠ []) t.body →
      ∀ r ∈ p.regions, Progresses (p.item r) (exactly r.separator)) := by
  have hg := parser_guarded hf hp
  have hlines : ∀ r ∈ p.regions, r.nonempty = true → r.separator ≠ [] := by
    have hjoins : ∀ n : Node, n.Joins fun r => r.nonempty = true → r.separator ≠ [] := by
      intro n
      cases n with
      | join name type separator children => exact fun item h => nomatch h
      | _ => trivial
    exact parser_regions hf hp (Node.everyAll_of_forall hjoins t.body) fun r h _ => h
  constructor
  · intro r hr
    refine ⟨hlines r hr, Grammar.progresses_iff hg r.item r.separator, fun hstuck c as last => ?_⟩
    exact Grammar.not_loop_of_not_progresses hg r.item r.separator hstuck
  · intro hbody r hr
    have hseparator := parser_regions hf hp hbody (fun r h => h) r hr
    exact progresses_exactly hseparator (p.advances_item r)

end Template

namespace Panel

def schema : Schema :=
  ⟨[.concept "Panel" [{ Property.plain "lights" "Boolean" with array := true }]]⟩

/-- Each light that is on is a `Y`, with nothing between them. -/
def markup : String :=
  "\x7b\x7b#join lights separator=\x22\x22\x7d\x7d\x7b\x7b#if this\x7d\x7dY\x7b\x7b/if\x7d\x7d" ++
  "\x7b\x7b/join\x7d\x7d!"

def light : List Node := [.conditional thisName none [.text "Y"] []]

def template : Template := ⟨.clause, "Panel",
  [.markup .paragraph [.join "lights" (some "Boolean") "" light, .text "!"]]⟩

def nodes : List Node :=
  [.markup .paragraph [.join "lights" none "" light, .text "!"]]

theorem ofNodes_eq : Template.ofNodes schema .clause "Panel" nodes = .ok template :=
  Template.eq_ok_of_equal (by decide +kernel)

def context : ScanContext := ⟨0, ⟨0, 0, 0⟩⟩

def item : ValueGrammar := .element none (.concat
  [.either (.flagged (.concat [.text ['Y']]) thisName true) (.flagged .nothing thisName false)])

def parser : TemplateParser :=
  ⟨context, [], .record "Panel" (some "clauseId")
    (.concat [.concat [.slot "lights" (.items [] false item), .text ['!']]])⟩

def record : Json := .obj [("lights", .arr [.bool true, .bool true])]

theorem parser_template :
    (template.parser context (Table.empty schema .standard)).1 = .ok parser := by cbv

theorem mem_regions : ⟨[], false, item⟩ ∈ parser.regions := List.mem_append_left _ List.mem_cons_self

/-- The item accepts the empty text, for a light that is off. -/
theorem not_progresses : ¬ parser.Progresses := by
  intro h
  have hguarded := Template.parser_guarded (Table.faithful_empty schema .standard) parser_template
  rcases (Grammar.progresses_iff hguarded item []).mp (h _ mem_regions) with hseparator | hnone
  · exact hseparator rfl
  · cases hnone

/-- The text of two lights is drafted, and reading it does not end: behind every light one that is off
may follow, which is shown by nothing. -/
theorem parser_progresses_panel :
    Template.ofMarkup schema .clause "Panel" markup = .ok template ∧
      (Table.empty schema .standard).Faithful ∧
      (template.parser context (Table.empty schema .standard)).1 = .ok parser ∧
      (∃ doc s', (template.draft record ⟨0, 0, 0⟩).run ⟨Table.empty schema .standard, 0⟩ = (.ok doc, s') ∧
        Markdown.render '-' [doc] = "YY!") ∧
      ⟨[], false, item⟩ ∈ parser.regions ∧
      ∀ c as last, ¬ Loop (parser.item ⟨[], false, item⟩) (exactly []) c as last := by
  have hf := Table.faithful_empty schema .standard
  obtain ⟨hregions, -⟩ := Template.parser_progresses_iff hf parser_template
  obtain ⟨-, hiff, hstuck⟩ := hregions _ mem_regions
  refine ⟨Template.eq_ok_of_equal (by decide +kernel), hf, parser_template,
    ⟨_, _, by cbv, by cbv⟩, mem_regions, hstuck fun hprogresses => ?_⟩
  rcases hiff.mp hprogresses with hseparator | hnone
  · exact hseparator rfl
  · cases hnone

end Panel

end ClauseTemplates
