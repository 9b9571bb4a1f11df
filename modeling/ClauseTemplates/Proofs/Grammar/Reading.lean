import ClauseTemplates.Grammar.Scanning
import ClauseTemplates.Proofs.Scan.Reading

namespace ClauseTemplates.Grammar

open Scan Scanner

variable {context : ScanContext} {compound : String → Scanner Char Captured}

theorem read?_text (chars : List Char) (c : Cursor Char) :
    read? ((text chars).scanner context compound) c =
      (read? (exactly chars) c).map fun x => ([], x.2) := by
  refine (read?_bind (exactly chars) _ c).trans ?_
  cases read? (exactly chars) c <;> rfl

theorem read?_text_append (chars rest : List Char) (offset : Nat) :
    read? ((text chars).scanner context compound) ⟨offset, chars ++ rest⟩ =
      some ([], ⟨offset + chars.length, rest⟩) := by
  rw [read?_text, read?_exactly]
  rfl

theorem read?_text_none {chars : List Char} {c : Cursor Char} (h : ¬ chars <+: c.rest) :
    read? ((text chars).scanner context compound) c = none := by
  rw [read?_text, read?_exactly_none h]
  rfl

theorem read?_nothing (c : Cursor Char) :
    read? (nothing.scanner context compound) c = some ([], c) := by
  rw [nothing, read?_text]
  rfl

theorem read?_seq (first second : Grammar) (c : Cursor Char) :
    read? ((seq first second).scanner context compound) c =
      (read? (first.scanner context compound) c).bind fun x =>
        (read? (second.scanner context compound) x.2).map fun y => (x.1 ++ y.1, y.2) := by
  refine (read?_bind (first.scanner context compound) _ c).trans ?_
  refine congrArg _ (funext fun x => ?_)
  rw [read?_bind]
  cases read? (second.scanner context compound) x.2 <;> rfl

theorem read?_seq_none {first second : Grammar} {c : Cursor Char}
    (h : read? (first.scanner context compound) c = none) :
    read? ((seq first second).scanner context compound) c = none := by
  rw [read?_seq, h]
  rfl

/-- Nothing is read where nothing is read behind the text in front. -/
theorem read?_after_none {chars : List Char} {second : Grammar} {c : Cursor Char}
    (h : ∀ next : Cursor Char, c.rest = chars ++ next.rest →
      read? (second.scanner context compound) next = none) :
    read? ((seq (.text chars) second).scanner context compound) c = none := by
  rw [read?_seq, read?_text]
  cases hr : read? (exactly chars) c with
  | none => rfl
  | some x =>
    rw [Option.map_some, Option.bind_some, h x.2 (read?_exactly_some hr).1]
    rfl

theorem read?_seq_some {first second : Grammar} {c mid next : Cursor Char} {slots more : List Slot}
    (h : read? (first.scanner context compound) c = some (slots, mid))
    (h' : read? (second.scanner context compound) mid = some (more, next)) :
    read? ((seq first second).scanner context compound) c = some (slots ++ more, next) := by
  rw [read?_seq, h, Option.bind_some, h']
  rfl

theorem read?_seq_eq_some {first second : Grammar} {c next : Cursor Char} {slots : List Slot} :
    read? ((seq first second).scanner context compound) c = some (slots, next) ↔
      ∃ before mid more, slots = before ++ more ∧
        read? (first.scanner context compound) c = some (before, mid) ∧
        read? (second.scanner context compound) mid = some (more, next) := by
  rw [read?_seq]
  constructor
  · intro h
    obtain ⟨⟨before, mid⟩, hfirst, h⟩ := Option.bind_eq_some_iff.mp h
    obtain ⟨⟨more, last⟩, hsecond, heq⟩ := Option.map_eq_some_iff.mp h
    cases heq
    exact ⟨before, mid, more, rfl, hfirst, hsecond⟩
  · rintro ⟨before, mid, more, rfl, hfirst, hsecond⟩
    rw [hfirst, Option.bind_some, hsecond]
    rfl

/-- Text in front is passed, and shows nothing. -/
theorem read?_after_some {chars : List Char} {second : Grammar} {c next : Cursor Char}
    {slots : List Slot}
    (h : read? ((seq (.text chars) second).scanner context compound) c = some (slots, next)) :
    ∃ mid : Cursor Char, c.rest = chars ++ mid.rest ∧
      read? (second.scanner context compound) mid = some (slots, next) := by
  obtain ⟨before, mid, more, rfl, hfirst, hsecond⟩ := read?_seq_eq_some.mp h
  rw [read?_text] at hfirst
  obtain ⟨⟨_, last⟩, hread, heq⟩ := Option.map_eq_some_iff.mp hfirst
  cases heq
  exact ⟨last, (read?_exactly_some hread).1, hsecond⟩

/-- Nothing is read behind the last part. -/
theorem read?_last_some {first : Grammar} {c next : Cursor Char} {slots : List Slot}
    (h : read? ((seq first nothing).scanner context compound) c = some (slots, next)) :
    read? (first.scanner context compound) c = some (slots, next) := by
  obtain ⟨before, mid, more, rfl, hfirst, hsecond⟩ := read?_seq_eq_some.mp h
  rw [read?_nothing] at hsecond
  cases hsecond
  rw [List.append_nil]
  exact hfirst

/-- What is read between two texts of the template. -/
theorem read?_enclosed {before after : List Char} {body : Grammar} {c next : Cursor Char}
    {slots : List Slot} (h : read? ((concat [.text before, body, .text after]).scanner context compound)
      c = some (slots, next)) :
    ∃ mid last : Cursor Char, c.rest = before ++ mid.rest ∧
      read? (body.scanner context compound) mid = some (slots, last) ∧
      last.rest = after ++ next.rest := by
  simp only [concat] at h
  obtain ⟨mid, hmid, h⟩ := read?_after_some h
  obtain ⟨slots, last, more, rfl, hbody, h⟩ := read?_seq_eq_some.mp h
  obtain ⟨stop, hstop, h⟩ := read?_after_some h
  rw [read?_nothing] at h
  cases h
  rw [List.append_nil]
  exact ⟨mid, last, hmid, hbody, hstop⟩

theorem read?_either (first second : Grammar) (c : Cursor Char) :
    read? ((either first second).scanner context compound) c =
      (read? (first.scanner context compound) c).or (read? (second.scanner context compound) c) := by
  exact read?_orElse _ _ c

theorem read?_slot (name : String) (value : ValueGrammar) (c : Cursor Char) :
    read? ((slot name value).scanner context compound) c =
      (read? (valueScanner context compound value) c).map fun x =>
        ([.mk name x.1 c.offset], x.2) := by
  exact read?_located _ _ c

theorem read?_optionally (body : Grammar) (c : Cursor Char) :
    read? ((optionally body).scanner context compound) c =
      some ((read? (body.scanner context compound) c).getD ([], c)) := by
  refine (read?_bind (optional (body.scanner context compound)) _ c).trans ?_
  rw [read?_optional]
  cases read? (body.scanner context compound) c <;> rfl

theorem read?_record (type : String) (identifier : Option String) (body : Grammar)
    (c : Cursor Char) :
    read? (valueScanner context compound (.record type identifier body)) c =
      (read? (body.scanner context compound) c).map fun x => (.record type identifier x.1, x.2) := by
  refine (read?_bind (body.scanner context compound) _ c).trans ?_
  cases read? (body.scanner context compound) c <;> rfl

theorem read?_element (type : Option String) (body : Grammar) (c : Cursor Char) :
    read? (valueScanner context compound (.element type body)) c =
      (read? (body.scanner context compound) c).map fun x => (.ofElement type x.1, x.2) := by
  refine (read?_bind (body.scanner context compound) _ c).trans ?_
  cases read? (body.scanner context compound) c <;> rfl

theorem read?_items (separator : List Char) (nonempty : Bool) (item : ValueGrammar)
    (c : Cursor Char) :
    read? (valueScanner context compound (.items separator nonempty item)) c =
      (read? (separated (valueScanner context compound item) (exactly separator) nonempty false)
        c).map fun x => (.array x.1, x.2) := by
  refine (read?_bind (separated (valueScanner context compound item) (exactly separator) nonempty
    false) _ c).trans ?_
  cases read? (separated (valueScanner context compound item) (exactly separator) nonempty false) c
    <;> rfl

theorem read?_scalar (program : ScalarProgram) (c : Cursor Char) :
    read? (valueScanner context compound (.scalar program)) c =
      (read? (program.scanner context) c).map fun x => (.value x.1, x.2) := by
  refine (read?_bind (program.scanner context) _ c).trans ?_
  cases read? (program.scanner context) c <;> rfl

end ClauseTemplates.Grammar
