import ClauseTemplates.Proofs.Grammar.Reads
import ClauseTemplates.Proofs.Parsing.Accepted

namespace ClauseTemplates

namespace Captured

open Folding Json

variable {text other : List Char}

mutual

/-- The places in a text make no difference to what is folded. -/
theorem run_fold_unplaced : ∀ (c : Captured) (n m : Nat) (v : Json),
    (fold text c).run n = .ok (v, m) ↔ (fold other c.unplaced).run n = .ok (v, m)
  | .value w, n, m, v => by rw [unplaced, run_fold_value, run_fold_value]
  | .record type identifier slots, n, m, v => by
    rw [unplaced, run_fold_record, run_fold_record]
    simp only [run_foldSlots_unplaced slots]
  | .unwrapped slots, n, m, v => by
    rw [unplaced, run_fold_unwrapped, run_fold_unwrapped]
    simp only [run_foldThis_unplaced slots]
  | .array items, n, m, v => by
    rw [unplaced, run_fold_array, run_fold_array]
    simp only [run_foldItems_unplaced items]

theorem run_foldItems_unplaced : ∀ (items : List Captured) (n m : Nat) (vs : List Json),
    (foldItems text items).run n = .ok (vs, m) ↔
      (foldItems other (unplacedAll items)).run n = .ok (vs, m)
  | [], n, m, vs => Iff.rfl
  | item :: rest, n, m, vs => by
    rw [unplacedAll, run_foldItems_cons, run_foldItems_cons]
    simp only [run_fold_unplaced item, run_foldItems_unplaced rest]

theorem run_foldSlots_unplaced : ∀ (slots : List Slot) (fields found : Fields) (n m : Nat),
    (foldSlots text fields slots).run n = .ok (found, m) ↔
      (foldSlots other fields (Slot.unplacedAll slots)).run n = .ok (found, m)
  | [], fields, found, n, m => Iff.rfl
  | .mk name c start :: rest, fields, found, n, m => by
    rw [Slot.unplacedAll]
    by_cases hname : name = thisName
    · subst hname
      rw [run_foldSlots_this, run_foldSlots_this, run_foldSlots_unplaced rest]
    · rw [run_foldSlots_cons hname, run_foldSlots_cons hname]
      simp only [run_fold_unplaced c, run_foldSlots_unplaced rest]

theorem run_foldThis_unplaced : ∀ (slots : List Slot) (found result : Option Json) (n m : Nat),
    (foldThis text found slots).run n = .ok (result, m) ↔
      (foldThis other found (Slot.unplacedAll slots)).run n = .ok (result, m)
  | [], found, result, n, m => Iff.rfl
  | .mk name c start :: rest, found, result, n, m => by
    rw [Slot.unplacedAll]
    by_cases hname : name = thisName
    · subst hname
      rw [run_foldThis_cons, run_foldThis_cons]
      simp only [run_fold_unplaced c, run_foldThis_unplaced rest]
    · rw [run_foldThis_other hname, run_foldThis_other hname, run_foldThis_unplaced rest]

end

end Captured

/-- What the parser captures where the grammar of the template reads a text before blanks. -/
theorem Template.capture_of_reads {t : Template} {context : ScanContext} {table : Table}
    {p : TemplateParser} (hf : table.Faithful) (hp : (t.parser context table).1 = .ok p)
    {w blanks : List Char} {Shown : List Slot → Prop} (hblanks : Text.allBlank blanks = true)
    (h : ∀ compound : String → Scanner Char Captured, (∀ type, (compound type).Advances) →
      ∃ shown, Shown shown ∧
        Grammar.Reads context compound (t.grammar table.schema table.settings) blanks w shown) :
    ∃ captured shown, p.capture (w ++ blanks) = .ok captured ∧ Shown shown ∧
      captured.unplaced = .record t.type (some (t.identifier table.settings)) shown := by
  obtain ⟨hctx, hroot⟩ := Template.parser_ok hf hp
  obtain ⟨shown, hholds, hreads⟩ := h (Grammar.compoundScanner context p.compounds
    ((w ++ blanks).length + 1)) (Grammar.advances_compoundScanner _ _)
  obtain ⟨captured, hread, hshown⟩ := hreads.record t.type (some (t.identifier table.settings)) 0
  refine ⟨captured, shown, ?_, hholds, hshown⟩
  rw [TemplateParser.capture_eq_ok, hctx, hroot, Grammar.textScanner_iff]
  exact ⟨_, hread, hblanks⟩

/-- The parser then makes a record of what is shown, or finds that it does not agree. -/
theorem Template.parse_of_reads {t : Template} {context : ScanContext} {table : Table}
    {p : TemplateParser} (hf : table.Faithful) (hp : (t.parser context table).1 = .ok p)
    {w blanks : List Char} {shown : List Slot} (hblanks : Text.allBlank blanks = true)
    (h : ∀ compound : String → Scanner Char Captured, (∀ type, (compound type).Advances) →
      Grammar.Reads context compound (t.grammar table.schema table.settings) blanks w
      shown) (n : Nat) :
    (∀ value m, (Captured.fold [] (.record t.type (some (t.identifier table.settings)) shown)).run n =
        .ok (value, m) → p.parse (String.ofList (w ++ blanks)) n = .ok value) ∧
      ((∀ value m, (Captured.fold [] (.record t.type (some (t.identifier table.settings)) shown)).run n ≠
          .ok (value, m)) →
        ∃ e, p.parse (String.ofList (w ++ blanks)) n = .error (.inconsistent e)) := by
  obtain ⟨captured, _, hcapture, rfl, hshown⟩ := Template.capture_of_reads hf hp hblanks
    fun compound hc => ⟨shown, rfl, h compound hc⟩
  rw [← hshown]
  have hfold (m : Nat) (v : Json) :
      (Captured.fold (w ++ blanks) captured).run n = .ok (v, m) ↔
        (Captured.fold [] captured.unplaced).run n = .ok (v, m) :=
    Captured.run_fold_unplaced captured n m v
  have hparse : p.parse (String.ofList (w ++ blanks)) n =
      (((Captured.fold (w ++ blanks) captured).run n).mapError Error.inconsistent).map Prod.fst := by
    unfold TemplateParser.parse
    rw [String.toList_ofList, hcapture]
    rfl
  rw [hparse]
  constructor
  · intro value m hvalue
    rw [(hfold m value).mpr hvalue]
    rfl
  · intro hnone
    cases hrun : (Captured.fold (w ++ blanks) captured).run n with
    | ok x => exact absurd ((hfold x.2 x.1).mp hrun) (hnone x.1 x.2)
    | error e => exact ⟨e, rfl⟩

end ClauseTemplates
