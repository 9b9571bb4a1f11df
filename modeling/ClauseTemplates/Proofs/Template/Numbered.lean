import ClauseTemplates.Proofs.Drafting.Calculations
import ClauseTemplates.Proofs.Markup.Naming
import ClauseTemplates.Proofs.Template.Equality

namespace ClauseTemplates

open Calculation Drafting Node

namespace Template

variable {schema : Schema} {kind : TemplateKind} {type markup : String} {t : Template}

theorem formulas_eq (t : Template) :
    t.formulas.map (fun f => (f.name, f.code)) = named .formula (calculationsAll t.body) :=
  Formulas.collectAll_calculations t.body

theorem exists_formula_of_calculation {c : Calculation} (hc : c ∈ calculationsAll t.body)
    (hkind : c.kind = .formula) : ∃ f ∈ t.formulas, f.name = c.name ∧ f.code = c.code := by
  have hmem : (c.name, c.code) ∈ t.formulas.map fun f => (f.name, f.code) := by
    rw [formulas_eq]
    exact List.mem_map.mpr ⟨c, List.mem_filter.mpr ⟨hc, by simp [hkind]⟩, rfl⟩
  obtain ⟨f, hf, heq⟩ := List.mem_map.mp hmem
  exact ⟨f, hf, congrArg Prod.fst heq, congrArg Prod.snd heq⟩

/-- The formulas of a template read from markup are numbered in the order of the document, and so are
the conditions of its conditionals. Whatever is drafted for a formula, its result or an error, goes by
the name under which the template lists its code. -/
theorem ofMarkup_numbered (h : Template.ofMarkup schema kind type markup = .ok t) :
    ∃ nodes, Markup.read markup = .ok nodes ∧
      t.formulas.map (fun f => (f.name, f.code)) =
        numbered "formula_" 0 ((named .formula (calculationsAll nodes)).map Prod.snd) ∧
      (t.formulas.map Formula.name).Nodup ∧
      named .condition (calculationsAll t.body) =
        numbered "condition_" 0 ((named .condition (calculationsAll nodes)).map Prod.snd) ∧
      ∀ (data : Json) (now : Instant) (s s' : DraftState), s.table.Faithful →
        (∀ doc, (t.draft data now).run s = (.ok doc, s') → ∀ found ∈ doc.formulas,
          ∃ f ∈ t.formulas, f.name = found.1 ∧ ∃ value,
            evaluated? f.code data now = some value ∧ found.2 = value.display) ∧
        ∀ name reason, (t.draft data now).run s = (.error (.draft (.evaluation name reason)), s') →
          (∃ f ∈ t.formulas, f.name = name ∧ Fails f.code data now reason) ∨
            ∃ c ∈ calculationsAll t.body, c.kind ≠ .formula ∧ c.name = name ∧
              ∃ scope, Fails c.code scope now reason := by
  have hat := ofMarkup_at h
  obtain ⟨nodes, hread, h⟩ := bind_eq_ok.mp h
  have hread := mapError_eq_ok.mp hread
  have hsame := calculations_ofNodes h
  obtain ⟨hformulas, hconditions⟩ := Markup.read_numbered hread
  have hlisted : t.formulas.map (fun f => (f.name, f.code)) =
      numbered "formula_" 0 ((named .formula (calculationsAll nodes)).map Prod.snd) := by
    rw [formulas_eq, hsame]
    exact hformulas
  have hnames : t.formulas.map Formula.name =
      (numbered "formula_" 0 ((named .formula (calculationsAll nodes)).map Prod.snd)).map Prod.fst := by
    rw [← hlisted, List.map_map]
    rfl
  refine ⟨nodes, hread, hlisted, hnames ▸ nodup_numbered _ _ _, hsame ▸ hconditions, ?_⟩
  intro data now s s' hs
  obtain ⟨_, hshows, hblames⟩ := traces_draft (resultless_eachAt hat.2.2) data now s hs
  constructor
  · intro doc hrun found hfound
    rw [hrun] at hshows
    obtain ⟨code, value, hmem, hvalue, htext⟩ := hshows doc rfl found hfound
    obtain ⟨f, hf, hname, hcode⟩ := exists_formula_of_calculation hmem rfl
    exact ⟨f, hf, hname, value, hcode ▸ hvalue, htext⟩
  · intro name reason hrun
    rw [hrun] at hblames
    obtain ⟨c, hc, hname, scope, hscope, hfails⟩ := hblames _ rfl name reason rfl
    by_cases hkind : c.kind = .formula
    · obtain ⟨f, hf, hfname, hcode⟩ := exists_formula_of_calculation hc hkind
      have hdata : scope = data := hscope hkind
      rw [hdata, ← hcode] at hfails
      exact Or.inl ⟨f, hf, hfname.trans hname, hfails⟩
    · exact Or.inr ⟨c, hc, hkind, hname, scope, hfails⟩

end Template

namespace Timesheet

def schema : Schema := ⟨[.concept "Timesheet" [.plain "hours" "Integer", .plain "people" "Integer"]]⟩

def markup : String :=
  "\x7b\x7b#if condition=\x22hours > 0\x22\x7d\x7d\x7b\x7b% hours % people %\x7d\x7d" ++
    "\x7b\x7belse\x7d\x7d\x7b\x7b% people %\x7d\x7d\x7b\x7b/if\x7d\x7d"

def template : Template :=
  ⟨.clause, "Timesheet", [.markup .paragraph [.conditional "condition_1" (some "hours > 0")
    [.formula ⟨"formula_1", "hours % people", ["hours", "people"]⟩]
    [.formula ⟨"formula_2", "people", ["people"]⟩]]]⟩

def record (people : Int) : Json := .obj [("hours", .int 7), ("people", .int people)]

def start : DraftState := ⟨Table.empty schema .standard, 0⟩

theorem ofMarkup_eq : Template.ofMarkup schema .clause "Timesheet" markup = .ok template :=
  Template.eq_ok_of_equal (by decide +kernel)

theorem drafts : ∃ doc s', (template.draft (record 3) ⟨0, 0, 0⟩).run start = (.ok doc, s') ∧
    doc.formulas = [("formula_1", "1")] := by
  have h : ((template.draft (record 3) ⟨0, 0, 0⟩).run start).1.toOption.any
      (·.formulas == [("formula_1", "1")]) = true := by decide +kernel
  rcases hrun : (template.draft (record 3) ⟨0, 0, 0⟩).run start with ⟨_ | doc, s'⟩
  · rw [hrun] at h
    cases h
  · rw [hrun] at h
    exact ⟨doc, s', rfl, eq_of_beq h⟩

theorem fails : ∃ s', (template.draft (record 0) ⟨0, 0, 0⟩).run start =
    (.error (.draft (.evaluation "formula_1" "division by zero")), s') := by
  have h : (match ((template.draft (record 0) ⟨0, 0, 0⟩).run start).1 with
      | .error (.draft e) => decide (e = .evaluation "formula_1" "division by zero")
      | _ => false) = true := by decide +kernel
  rcases hrun : (template.draft (record 0) ⟨0, 0, 0⟩).run start with ⟨result, s'⟩
  rw [hrun] at h
  dsimp only at h
  split at h
  · exact ⟨s', by rw [of_decide_eq_true h]⟩
  · cases h

/-- The hours of three people and of none. -/
theorem ofMarkup_numbered_timesheet : Template.ofMarkup schema .clause "Timesheet" markup = .ok template ∧
    (∃ f ∈ template.formulas, f.name = "formula_1" ∧ ∃ value,
      evaluated? f.code (record 3) ⟨0, 0, 0⟩ = some value ∧ "1" = value.display) ∧
    ((∃ f ∈ template.formulas, f.name = "formula_1" ∧
        Fails f.code (record 0) ⟨0, 0, 0⟩ "division by zero") ∨
      ∃ c ∈ calculationsAll template.body, c.kind ≠ .formula ∧ c.name = "formula_1" ∧
        ∃ scope, Fails c.code scope ⟨0, 0, 0⟩ "division by zero") := by
  obtain ⟨doc, s', hdraft, hformulas⟩ := drafts
  obtain ⟨s'', hfails⟩ := fails
  obtain ⟨_, _, _, _, _, hdrafts⟩ := Template.ofMarkup_numbered ofMarkup_eq
  have hfaithful : start.table.Faithful := Table.faithful_empty schema .standard
  refine ⟨ofMarkup_eq, ?_, (hdrafts (record 0) ⟨0, 0, 0⟩ start s'' hfaithful).2 _ _ hfails⟩
  exact (hdrafts (record 3) ⟨0, 0, 0⟩ start s' hfaithful).1 doc hdraft ("formula_1", "1")
    (hformulas ▸ List.mem_singleton_self _)

end Timesheet

end ClauseTemplates
