import ClauseTemplates.Proofs.Entry.Labelled
import ClauseTemplates.Proofs.Grammar.Entries
import ClauseTemplates.Proofs.Grammar.Reading

namespace ClauseTemplates.Grammar

open Scan Scanner

section

variable {schema : Schema} {kind : TemplateKind} {settings : Settings} {context : ScanContext}
  {compound : String → Scanner Char Captured}

/-- A label keeps its characters, with some in front of them. -/
theorem escaped_ne_nil {label : String} (h : label ≠ "") : Text.escaped label.toList ≠ [] := by
  cases hl : label.toList with
  | nil => exact absurd (String.toList_eq_nil_iff.mp hl) h
  | cons c cs =>
    rw [Text.escaped]
    split <;> simp

/-- The template of a record enters other records only behind a label. -/
theorem enters_labelled (hc : ∀ type, Advances (compound type)) (margin : List Char)
    {ns : List Node} (h : Node.Labelled ns) {c d : Cursor Char} {type : String}
    (henters : Enters context compound (ofInlines schema kind settings margin ns) c type d) :
    c.Before d := by
  induction h generalizing c with
  | nil =>
    rw [ofInlines, nothing, Enters] at henters
    exact henters.elim
  | @text label rest hlabel =>
    change Enters context compound (.seq (.text (Text.escaped label.toList))
      (ofInlines schema kind settings margin rest)) c type d at henters
    rw [Enters, Enters] at henters
    rcases henters with henters | ⟨slots, mid, hread, henters⟩
    · exact henters.elim
    · have hmid : c.Before mid := by
        rw [read?_text] at hread
        obtain ⟨⟨_, last⟩, hlast, heq⟩ := Option.map_eq_some_iff.mp hread
        cases heq
        exact ⟨_, escaped_ne_nil hlabel, read?_exactly_some hlast⟩
      obtain ⟨w, hw⟩ := enters_passes hc _ mid type d henters
      exact hmid.of_passes hw
  | optional name type' _ _ ihSome ihRest =>
    rw [ofInlines, ofNode, Enters, Enters, Enters, EntersValue] at henters
    rcases henters with (henters | ⟨_, henters⟩) | ⟨slots, mid, hread, henters⟩
    · exact ihSome henters
    · rw [ofInlines, nothing, Enters] at henters
      exact henters.elim
    · obtain ⟨w, hw⟩ := advances_scanner hc _ c slots mid hread
      exact hw.before (ihRest henters)

end

section

variable (context : ScanContext) (compounds : Compounds)

/-- Reads a record of a compound type, with as many records inside one another as the text has
characters. -/
def recordScanner (type : String) : Scanner Char Captured := fun c =>
  compoundScanner context compounds (c.rest.length + 1) type c

/-- Reads a record of a compound type by its grammar, with `records` for the records inside. -/
def recordOf (records : String → Scanner Char Captured) (type : String) : Scanner Char Captured :=
  match compounds.lookup type with
  | none => fun c => .failure (unexpected [] c)
  | some g => valueScanner context records g

/-- Reading a record of the first type at the first place enters a record of the second type at the
second place. -/
def Nested (entry inner : String × Cursor Char) : Prop :=
  ∃ g, compounds.lookup entry.1 = some g ∧
    EntersValue context (recordScanner context compounds) g entry.2 inner.1 inner.2

/-- Every record inside another one stands behind some text of that one. -/
def Guarded : Prop :=
  ∀ type g, compounds.lookup type = some g → ∀ compound : String → Scanner Char Captured,
    (∀ other, Advances (compound other)) → ∀ c other d,
      EntersValue context compound g c other d → c.Before d

end

section

variable {context : ScanContext} {compounds : Compounds}

theorem advances_recordScanner (type : String) :
    Advances (recordScanner context compounds type) :=
  fun c a next h => advances_compoundScanner compounds _ type c a next h

variable (hg : Guarded context compounds)

include hg

theorem Nested.before {type other : String} {c d : Cursor Char}
    (h : Nested context compounds (type, c) (other, d)) : c.Before d := by
  obtain ⟨g, hlookup, henters⟩ := h
  exact hg type g hlookup _ advances_recordScanner c other d henters

/-- Every bound that is greater than the length of the text gives the same record. The induction is
on the text that is left, which is shorter wherever a record inside begins. -/
theorem compoundScanner_stable (fuel fuel' : Nat) (type : String) (c : Cursor Char)
    (h : c.rest.length < fuel) (h' : c.rest.length < fuel') :
    compoundScanner context compounds fuel type c =
      compoundScanner context compounds fuel' type c := by
  induction fuel generalizing fuel' type c with
  | zero => omega
  | succ fuel ih =>
    obtain ⟨fuel', rfl⟩ : ∃ n, fuel' = n + 1 := ⟨fuel' - 1, by omega⟩
    unfold compoundScanner
    cases hlookup : compounds.lookup type with
    | none => rfl
    | some g =>
      refine valueScanner_congr_at g c fun other d henters => ?_
      have hlt := (hg type g hlookup _ (advances_compoundScanner compounds fuel) c other d
        henters).length_lt
      exact ih fuel' other d (by omega) (by omega)

theorem compoundScanner_eq_record {fuel : Nat} (type : String) {c : Cursor Char}
    (h : c.rest.length < fuel) :
    compoundScanner context compounds fuel type c = recordScanner context compounds type c :=
  compoundScanner_stable hg fuel _ type c h (Nat.lt_succ_self _)

/-- Records are read by their grammars, where the records inside are read in the same way. -/
theorem recordOf_recordScanner :
    recordOf context compounds (recordScanner context compounds) =
      recordScanner context compounds := by
  funext type c
  change _ = recordOf context compounds (compoundScanner context compounds c.rest.length) type c
  unfold recordOf
  cases hlookup : compounds.lookup type with
  | none => rfl
  | some g =>
    refine valueScanner_congr_at g c fun other d henters => ?_
    have hlt := (hg type g hlookup _ advances_recordScanner c other d henters).length_lt
    exact (compoundScanner_eq_record hg other hlt).symm

/-- Nothing else is read in this way: two readers that do so agree where less text is left, and so
where records inside begin. -/
theorem eq_recordScanner {records : String → Scanner Char Captured}
    (h : recordOf context compounds records = records) :
    records = recordScanner context compounds := by
  have key : ∀ n type c, c.rest.length < n →
      recordScanner context compounds type c = records type c := by
    intro n
    induction n with
    | zero => omega
    | succ n ih =>
      intro type c hn
      rw [← recordOf_recordScanner hg, ← h]
      unfold recordOf
      cases hlookup : compounds.lookup type with
      | none => rfl
      | some g =>
        refine valueScanner_congr_at g c fun other d henters => ?_
        have hlt := (hg type g hlookup _ advances_recordScanner c other d henters).length_lt
        exact ih other d (by omega)
  funext type c
  exact (key _ type c (Nat.lt_succ_self _)).symm

/-- There are no more records inside one another than characters. -/
theorem length_le_of_isChain (entries : List (String × Cursor Char)) (type : String)
    (c : Cursor Char) (h : List.IsChain (Nested context compounds) ((type, c) :: entries)) :
    entries.length ≤ c.rest.length := by
  induction entries generalizing type c with
  | nil => exact Nat.zero_le _
  | cons entry entries ih =>
    obtain ⟨hnested, hlater⟩ := List.isChain_cons_cons.mp h
    obtain ⟨other, d⟩ := entry
    have hlt := (hnested.before hg).length_lt
    have hle := ih other d hlater
    rw [List.length_cons]
    omega

theorem wellFounded_nested :
    WellFounded fun inner entry => Nested context compounds entry inner := by
  refine Subrelation.wf (r := InvImage (· < ·) fun entry => entry.2.rest.length) ?_
    (InvImage.wf _ Nat.lt_wfRel.wf)
  intro inner entry h
  exact (Nested.before hg h).length_lt

end

end ClauseTemplates.Grammar
