import ClauseTemplates.Proofs.Format.Idle
import ClauseTemplates.Proofs.Grammar.Nested

namespace ClauseTemplates

namespace Grammar

open Scan Scanner

theorem consumes_formula : Consumes (do
    exactly Markdown.formulaOpen
    takeUntil (exactly Markdown.formulaClose)) := by
  have hopen : Markdown.formulaOpen ≠ [] := by decide
  exact (consumes_exactly hopen).bind fun _ _ _ _ h => advances_searched (advances_exactly _) _ _ _ _ h

theorem consumes_orderedMark : Consumes orderedMarkScanner :=
  ((consumes_satisfying _).many Nat.one_pos).bind fun _ => advances_exactly _

section

variable {context : ScanContext} {compound : String → Scanner Char Captured}

mutual

/-- A grammar that reads nothing at one place succeeds at every place, if that holds of the records
that are entered there. What it reads elsewhere may differ, as other choices may come first. -/
theorem scanner_total (hc : ∀ type, Advances (compound type)) : ∀ (g : Grammar) (c : Cursor Char)
    (slots : List Slot), (∀ type a, Enters context compound g c type c →
      read? (compound type) c = some (a, c) → Total (compound type)) →
    read? (scanner context compound g) c = some (slots, c) → Total (scanner context compound g)
  | .text chars, c, slots, _, hread => by
    have huniform : Uniform (skip (exactly chars)) := (uniform_exactly chars).bind
      (advances_exactly chars) (fun _ => uniform_pure []) fun _ => advances_pure []
    rw [scanner] at hread ⊢
    exact huniform.total hread
  | .seq first second, c, slots, h, hread => by
    obtain ⟨before, mid, more, rfl, hfirst, hsecond⟩ := read?_seq_eq_some.mp hread
    obtain ⟨v, hv⟩ := advances_scanner hc first c before mid hfirst
    obtain ⟨w, hw⟩ := advances_scanner hc second mid more c hsecond
    obtain rfl := hv.eq_of_return hw
    have hlater (type : String) (a : Captured) (henters : Enters context compound second mid type mid) :
        read? (compound type) mid = some (a, mid) → Total (compound type) :=
      h type a (Or.inr ⟨before, mid, hfirst, henters⟩)
    have htotal := scanner_total hc first mid before
      (fun type a henters => h type a (Or.inl henters)) hfirst
    have htotal' := scanner_total hc second mid more hlater hsecond
    rw [scanner]
    exact htotal.bind fun _ => htotal'.bind fun _ => total_pure _
  | .either first second, c, slots, h, hread => by
    rw [read?_either, Option.or_eq_some_iff] at hread
    rw [scanner]
    rcases hread with hfirst | ⟨hnone, hsecond⟩
    · exact .orElse (.inl (scanner_total hc first c slots
        (fun type a henters => h type a (Or.inl henters)) hfirst))
    · exact .orElse (.inr (scanner_total hc second c slots
        (fun type a henters => h type a (Or.inr ⟨hnone, henters⟩)) hsecond))
  | .flagged branch name flag, c, slots, h, hread => by
    rw [scanner, read?_located] at hread
    obtain ⟨⟨found, next⟩, hbranch, heq⟩ := Option.map_eq_some_iff.mp hread
    cases heq
    rw [scanner]
    exact (scanner_total hc branch next found h hbranch).located _
  | .slot name value, c, slots, h, hread => by
    rw [read?_slot] at hread
    obtain ⟨⟨captured, next⟩, hvalue, heq⟩ := Option.map_eq_some_iff.mp hread
    cases heq
    rw [scanner]
    exact (valueScanner_total hc value next captured h hvalue).located _
  | .formula, c, slots, _, hread => by
    rw [scanner] at hread
    exact absurd (consumes_formula.bind (fun _ => advances_pure []) c slots c hread)
      (Cursor.Before.irrefl c)
  | .orderedMark, c, slots, _, hread => by
    rw [scanner] at hread
    exact absurd (consumes_orderedMark.bind (fun _ => advances_pure []) c slots c hread)
      (Cursor.Before.irrefl c)
  | .optionally body, c, slots, _, _ => by
    rw [scanner]
    exact (total_optional _).bind fun _ => total_pure _

theorem valueScanner_total (hc : ∀ type, Advances (compound type)) : ∀ (g : ValueGrammar)
    (c : Cursor Char) (captured : Captured), (∀ type a, EntersValue context compound g c type c →
      read? (compound type) c = some (a, c) → Total (compound type)) →
    read? (valueScanner context compound g) c = some (captured, c) →
      Total (valueScanner context compound g)
  | .scalar program, c, captured, _, hread => by
    rw [read?_scalar] at hread
    obtain ⟨⟨value, next⟩, hvalue, heq⟩ := Option.map_eq_some_iff.mp hread
    cases heq
    rw [valueScanner]
    exact ((program.uniform_scanner context).total hvalue).bind fun _ => total_pure _
  | .reference type, c, captured, _, hread => by
    rw [valueScanner] at hread
    exact absurd (ScalarProgram.consumes_quotedScanner.bind (fun _ => advances_pure _) c captured c
      hread) (Cursor.Before.irrefl c)
  | .enum values, c, captured, _, hread => by
    rw [valueScanner] at hread ⊢
    obtain ⟨value, hlongest, -, hpasses⟩ := read?_enumChoices.mp hread
    have hempty : value.toList = [] := by
      by_contra hne
      exact Cursor.Before.irrefl c ⟨_, hne, hpasses⟩
    intro d
    obtain ⟨x, hx⟩ := exists_read?_enumChoices (c := d) hlongest.mem (hempty ▸ List.nil_prefix)
    exact ⟨x.1, x.2, hx⟩
  | .compound type, c, captured, h, hread => by
    rw [valueScanner] at hread ⊢
    exact h type captured ⟨rfl, rfl⟩ hread
  | .record type identifier body, c, captured, h, hread => by
    rw [read?_record] at hread
    obtain ⟨⟨slots, next⟩, hbody, heq⟩ := Option.map_eq_some_iff.mp hread
    cases heq
    rw [valueScanner]
    exact (scanner_total hc body next slots h hbody).bind fun _ => total_pure _
  | .element type body, c, captured, h, hread => by
    rw [read?_element] at hread
    obtain ⟨⟨slots, next⟩, hbody, heq⟩ := Option.map_eq_some_iff.mp hread
    cases heq
    rw [valueScanner]
    exact (scanner_total hc body next slots h hbody).bind fun _ => total_pure _
  | .items separator nonempty item, c, captured, h, hread => by
    rw [valueScanner]
    refine (total_separated fun hnonempty => ?_).bind fun _ => total_pure _
    subst hnonempty
    rw [read?_items, read?_separated] at hread
    cases hitem : read? (valueScanner context compound item) c with
    | none => simp [hitem] at hread
    | some x =>
      obtain ⟨first, mid⟩ := x
      have hadvances : Advances (valueScanner context compound item) := advances_valueScanner hc item
      obtain ⟨v, hv⟩ := hadvances c first mid hitem
      simp only [hitem, Option.map_some, Option.some.injEq, Prod.mk.injEq] at hread
      have hitems : ∀ c a next, read? (valueScanner context compound item) c = some (a, next) →
          ∃ w, c.Passes w next ∧ True := by
        intro c a next hnext
        obtain ⟨w, hw⟩ := hadvances c a next hnext
        exact ⟨w, hw, trivial⟩
      let later := laterItems? (valueScanner context compound item) (exactly separator)
        (mid.rest.length + 1) mid
      obtain ⟨texts, hw, -⟩ := laterItems?_passes (P := fun _ _ => True) hitems
        (show later = (later.1, later.2) from rfl)
      rw [show later.2 = c from hread.2] at hw
      obtain rfl := hv.eq_of_return hw
      exact valueScanner_total hc item mid first (fun type a henters => h type a (Or.inl henters))
        hitem

end

end

section

variable {context : ScanContext} {compounds : Compounds}

variable (hg : Guarded context compounds)

include hg

/-- A record inside another one stands behind some text, so one that reads nothing reads none. -/
theorem recordScanner_total {type : String} {c : Cursor Char} {a : Captured}
    (h : read? (recordScanner context compounds type) c = some (a, c)) :
    Total (recordScanner context compounds type) := by
  rw [← recordOf_recordScanner hg] at h ⊢
  unfold recordOf at h ⊢
  cases hlookup : compounds.lookup type with
  | none =>
    rw [hlookup] at h
    cases h
  | some g =>
    rw [hlookup] at h
    refine valueScanner_total advances_recordScanner g c a (fun other b henters _ => ?_) h
    exact absurd (hg type g hlookup _ advances_recordScanner c other c henters)
      (Cursor.Before.irrefl c)

variable (item : ValueGrammar) (separator : List Char)

theorem item_total {c : Cursor Char} {a : Captured}
    (h : read? (valueScanner context (recordScanner context compounds) item) c = some (a, c)) :
    Total (valueScanner context (recordScanner context compounds) item) :=
  valueScanner_total advances_recordScanner item c a (fun _ _ _ hread => recordScanner_total hg hread)
    h

/-- Rounds make progress if and only if there is a separator, or the item does not accept the empty
text. -/
theorem progresses_iff :
    Progresses (valueScanner context (recordScanner context compounds) item) (exactly separator) ↔
      separator ≠ [] ∨
        read? (valueScanner context (recordScanner context compounds) item) (Cursor.start []) =
          none := by
  have hadvances : Advances (valueScanner context (recordScanner context compounds) item) :=
    advances_valueScanner advances_recordScanner item
  constructor
  · intro h
    by_contra hnot
    obtain ⟨hseparator, hread⟩ := not_or.mp hnot
    obtain rfl := not_not.mp hseparator
    obtain ⟨⟨a, next⟩, ha⟩ := Option.ne_none_iff_exists'.mp hread
    obtain ⟨w, hw⟩ := hadvances _ a next ha
    have hbefore := h.round (Cursor.start []) a next ⟨Cursor.start [], rfl, ha⟩
    have hlt := hbefore.length_lt
    exact absurd hlt (Nat.not_lt_zero _)
  · rintro (hseparator | hnone)
    · exact progresses_exactly hseparator hadvances
    · refine progresses_of_round fun c a next hround => ?_
      obtain ⟨between, hbetween, ha⟩ := hround
      have hs := read?_exactly_some hbetween
      obtain ⟨w, hw⟩ := hadvances between a next ha
      rcases hw.before_or_eq with hbefore | rfl
      · exact hs.before hbefore
      · obtain ⟨b, last, hb⟩ := item_total hg item ha (Cursor.start [])
        rw [hnone] at hb
        cases hb

/-- Otherwise they go on for ever, wherever they begin. -/
theorem not_loop_of_not_progresses
    (h : ¬ Progresses (valueScanner context (recordScanner context compounds) item)
      (exactly separator)) {c last : Cursor Char} {as : List Captured} :
    ¬ Loop (valueScanner context (recordScanner context compounds) item) (exactly separator) c as
      last := by
  rw [progresses_iff hg] at h
  obtain ⟨hseparator, hread⟩ := not_or.mp h
  obtain rfl := not_not.mp hseparator
  obtain ⟨⟨a, next⟩, ha⟩ := Option.ne_none_iff_exists'.mp hread
  have hadvances : Advances (valueScanner context (recordScanner context compounds) item) :=
    advances_valueScanner advances_recordScanner item
  obtain ⟨w, hw⟩ := hadvances _ a next ha
  rcases hw.before_or_eq with hbefore | rfl
  · exact absurd hbefore.length_lt (Nat.not_lt_zero _)
  · exact not_loop_of_total (item_total hg item ha)

end

end Grammar

end ClauseTemplates
