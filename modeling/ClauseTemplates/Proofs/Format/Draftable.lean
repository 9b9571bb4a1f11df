import ClauseTemplates.Format.Scalar
import ClauseTemplates.Proofs.Calendar.Shifts
import ClauseTemplates.Proofs.Format.Finite
import ClauseTemplates.Proofs.Format.Integers
import ClauseTemplates.Proofs.Format.Partial

namespace ClauseTemplates

open Scan Scanner

/-- The numbers that tokens read for a field, as far as they do not depend on the other fields. -/
def DateField.InRange (f : DateField) (i : Int) : Prop :=
  match f with
  | .year => 0 ≤ i ∧ i ≤ 9999
  | .millis => i ≤ 999
  | _ => True

namespace DateTimeFormat

section

variable {token : DateToken} {tokens : List DateToken} {cursor next : Cursor Char}
  {fields : List (DateField × Int)} {context : ScanContext} {t : Instant}

theorem number_lt {least most : Nat} {i : Int} (hle : least ≤ most)
    (h : read? (number least most) cursor = some (i, next)) : 0 ≤ i ∧ i < (10 ^ most : Nat) := by
  unfold number at h
  rw [read?_bind] at h
  obtain ⟨⟨digits, between⟩, hdigits, h⟩ := Option.bind_eq_some_iff.mp h
  cases h
  obtain ⟨-, -, hmost, -⟩ := NumberFormat.read?_between_digits_some hle hdigits
  have hlt := (Decimal.ofDigitChars_lt digits).trans_le (Nat.pow_le_pow_right (by decide) hmost)
  exact ⟨Int.natCast_nonneg _, Int.ofNat_lt.mpr hlt⟩

theorem inRange_tokenScanner {found : Option (DateField × Int)}
    (h : read? (tokenScanner token) cursor = some (found, next)) :
    ∀ p ∈ found, p.1.InRange p.2 := by
  unfold tokenScanner at h
  cases token with
  | literal text =>
    rw [read?_bind] at h
    obtain ⟨x, -, h⟩ := Option.bind_eq_some_iff.mp h
    cases h
    nofun
  | fullYear =>
    rw [read?_field] at h
    obtain ⟨x, hx, h⟩ := Option.map_eq_some_iff.mp h
    cases h
    rintro p ⟨⟩
    have hlt := number_lt (Nat.le_refl 4) hx
    unfold DateField.InRange
    dsimp only
    omega
  | shortYear =>
    rw [read?_field, read?_bind] at h
    obtain ⟨x, hx, h⟩ := Option.map_eq_some_iff.mp h
    cases h
    obtain ⟨y, hy, hx⟩ := Option.bind_eq_some_iff.mp hx
    cases hx
    rintro p ⟨⟩
    have hlt := number_lt (Nat.le_refl 2) hy
    unfold DateField.InRange
    dsimp only
    omega
  | millis =>
    rw [read?_field] at h
    obtain ⟨x, hx, h⟩ := Option.map_eq_some_iff.mp h
    cases h
    rintro p ⟨⟩
    have hlt := number_lt (Nat.le_refl 3) hx
    unfold DateField.InRange
    dsimp only
    omega
  | _ =>
    rw [read?_field] at h
    obtain ⟨x, -, h⟩ := Option.map_eq_some_iff.mp h
    cases h
    rintro p ⟨⟩
    trivial

theorem inRange_fieldScanner (h : read? (fieldScanner tokens) cursor = some (fields, next)) :
    ∀ p ∈ fields, p.1.InRange p.2 := by
  induction tokens generalizing fields cursor with
  | nil =>
    cases h
    nofun
  | cons token tokens ih =>
    unfold fieldScanner at h
    rw [read?_bind] at h
    obtain ⟨⟨found, between⟩, hfound, h⟩ := Option.bind_eq_some_iff.mp h
    rw [read?_bind] at h
    obtain ⟨⟨later, last⟩, hlater, h⟩ := Option.bind_eq_some_iff.mp h
    cases h
    intro p hp
    rcases List.mem_append.mp hp with hp | hp
    · exact inRange_tokenScanner hfound p (Option.mem_toList.mp hp)
    · exact ih hlater p hp

theorem inRange_getD {f : DateField} {i : Int} (hfields : ∀ p ∈ fields, p.1.InRange p.2)
    (h : f.InRange i) : f.InRange ((fields.reverse.lookup f).getD i) := by
  cases hfound : fields.reverse.lookup f with
  | none => exact h
  | some found =>
    obtain ⟨before, behind, hsplit, -⟩ := List.lookup_eq_some_iff.mp hfound
    have hmem : (f, found) ∈ fields.reverse := by
      rw [hsplit]
      exact List.mem_append_right before List.mem_cons_self
    exact hfields _ (List.mem_reverse.mp hmem)

/-- The time that is told is one that RFC 3339 text with milliseconds can show. -/
theorem assemble_eq_ok (h : assemble context fields = .ok t)
    (hfields : ∀ p ∈ fields, p.1.InRange p.2) (hoffset : context.utcOffset.natAbs < 86400)
    (hyear : context.now.localTime.date.InFourDigits) :
    ∃ c offset, LocalTime.Ordinary c ∧ c.nanos % 1000000 = 0 ∧ offset.natAbs < 86400 ∧
      t = Instant.ofLocal c offset := by
  have hyears : DateField.year.InRange _ := inRange_getD hfields hyear
  have hmillis : DateField.millis.InRange _ := inRange_getD hfields (by decide : (0 : Int) ≤ 999)
  unfold assemble at h
  dsimp only at h
  split at h
  · cases h
  rename_i hday
  split at h
  · cases h
  rename_i hdate
  split at h
  · cases h
  rename_i htime
  cases h
  refine ⟨_, _, ?_, Nat.mul_mod_left _ _, ?_, rfl⟩
  · exact
      { date := by simpa using hdate
        year := hyears
        hour := by dsimp only; omega
        minute := by dsimp only; omega
        second := by dsimp only; omega
        nanos := by dsimp only [DateField.InRange] at hmillis ⊢; omega }
  · cases hshown : fields.reverse.lookup .offset with
    | none => exact hoffset
    | some offset =>
      rw [hshown] at hday
      simpa using hday

theorem draft_accepted {format : DateTimeFormat} {text : List Char} {value : Json}
    (haccepts : Accepts (format.scanner context) text value)
    (hoffset : context.utcOffset.natAbs < 86400)
    (hyear : context.now.localTime.date.InFourDigits) :
    ∃ shown, format.draft value = .ok shown := by
  obtain ⟨last, hread⟩ := accepts_iff.mp haccepts
  obtain ⟨fields, hfields, hvalue⟩ := read?_tryMap_eq_some.mp hread
  obtain ⟨t, ht, hvalue⟩ := bind_eq_ok.mp hvalue
  cases hvalue
  obtain ⟨c, offset, hc, hmillis, hday, rfl⟩ :=
    assemble_eq_ok ht (inRange_fieldScanner hfields) hoffset hyear
  -- an offset of the context may have seconds, which the text does not show
  have hback := Instant.read_written_minutes hc hmillis hday
  rw [← String.toList_ofList (l := (Instant.ofLocal c offset).written)] at hback
  exact ⟨_, draft_str hback⟩

end

end DateTimeFormat

namespace ScalarProgram

section

variable {type : ScalarType} {source : Option String} {program : ScalarProgram}
  {context : ScanContext} {text : List Char} {value : Json}

theorem compile_eq_ok (h : compile type source = .ok program) :
    (type = .string ∧ program = .string) ∨ (type = .boolean ∧ program = .boolean) ∨
    ((type = .integer ∨ type = .long) ∧ ∃ format,
      NumberFormat.integer (source.map String.toList) = .ok format ∧ program = .number format) ∨
    (type = .double ∧ ∃ format,
      NumberFormat.double (source.map String.toList) = .ok format ∧ program = .number format) ∨
    (type = .dateTime ∧ ∃ format,
      DateTimeFormat.compile (source.map String.toList) = .ok format ∧ program = .dateTime format) ∨
    (type = .monetaryAmount ∧ ∃ format,
      MonetaryFormat.compile (source.map String.toList) = .ok format ∧
        program = .monetary format) := by
  unfold compile at h
  cases type <;> dsimp only at h
  case string | boolean =>
    split at h
    · cases h
    · cases h
      simp
  all_goals
    obtain ⟨format, hformat, rfl⟩ := map_eq_ok.mp h
    simp [hformat]

theorem draft_string (haccepts : Accepts (scanner context .string) text value) :
    ∃ shown, draft .string value = .ok shown := by
  obtain ⟨last, hread⟩ := accepts_iff.mp haccepts
  unfold scanner at hread
  rw [read?_bind] at hread
  obtain ⟨⟨found, behind⟩, -, hread⟩ := Option.bind_eq_some_iff.mp hread
  cases hread
  exact ⟨_, rfl⟩

theorem draft_boolean (haccepts : Accepts (scanner context .boolean) text value) :
    ∃ shown, draft .boolean value = .ok shown := by
  obtain ⟨last, hread⟩ := accepts_iff.mp haccepts
  unfold scanner at hread
  rw [read?_orElse, Option.or_eq_some_iff, read?_bind, read?_bind] at hread
  rcases hread with hread | ⟨-, hread⟩
  all_goals
    obtain ⟨⟨found, behind⟩, -, hread⟩ := Option.bind_eq_some_iff.mp hread
    cases hread
    exact ⟨_, rfl⟩

theorem exists_draft (hcompile : compile type source = .ok program) (htype : type ≠ .monetaryAmount)
    (hoffset : context.utcOffset.natAbs < 86400)
    (hyear : context.now.localTime.date.InFourDigits)
    (haccepts : Accepts (program.scanner context) text value) :
    (∃ shown, program.draft value = .ok shown) ∧ (type = .double → ∃ x, value = .double x) := by
  rcases compile_eq_ok hcompile with ⟨rfl, rfl⟩ | ⟨rfl, rfl⟩ | ⟨hinteger, format, hformat, rfl⟩ |
    ⟨rfl, format, hformat, rfl⟩ | ⟨rfl, format, hformat, rfl⟩ | ⟨hmonetary, -⟩
  · exact ⟨draft_string haccepts, nofun⟩
  · exact ⟨draft_boolean haccepts, nofun⟩
  · obtain ⟨v, negative, zeros, body, rfl, hshown, -⟩ :=
      NumberFormat.draft_of_accepts hformat haccepts
    refine ⟨⟨_, hshown⟩, ?_⟩
    rintro rfl
    simp at hinteger
  · obtain ⟨x, rfl⟩ := NumberFormat.double_of_accepts hformat haccepts
    have hintegral := NumberFormat.integral_double hformat
    exact ⟨⟨_, NumberFormat.draft_double hintegral x⟩, fun _ => ⟨x, rfl⟩⟩
  · exact ⟨DateTimeFormat.draft_accepted haccepts hoffset hyear, nofun⟩
  · exact absurd hmonetary htype

/-- What is read can be drafted, except for amounts past the range of doubles, which are null. Texts
of at most 307 characters have no room for such an amount. -/
theorem draft_accepted_iff (hcompile : compile type source = .ok program)
    (hoffset : context.utcOffset.natAbs < 86400)
    (hyear : context.now.localTime.date.InFourDigits)
    (haccepts : Accepts (program.scanner context) text value) :
    ((∃ shown, program.draft value = .ok shown) ↔
      ¬ (type = .monetaryAmount ∧ value.get? "doubleValue" = some .null)) ∧
    (text.length ≤ 307 → ∃ shown, program.draft value = .ok shown) ∧
    (type = .double → ∃ x, value = .double x) := by
  by_cases htype : type = .monetaryAmount
  · subst htype
    obtain ⟨format, hformat, rfl⟩ := map_eq_ok.mp hcompile
    obtain ⟨hshown, hshort⟩ := MonetaryFormat.draft_read_iff hformat haccepts
    refine ⟨?_, fun hlength => hshown.mpr (hshort hlength), nofun⟩
    rw [eq_self_iff_true, true_and]
    exact hshown
  · obtain ⟨hshown, hdouble⟩ := exists_draft hcompile htype hoffset hyear haccepts
    exact ⟨iff_of_true hshown fun h => htype h.1, fun _ => hshown, hdouble⟩

end

namespace Ledger

def context : ScanContext := ⟨-18000, ⟨1709181000, 0, -18000⟩⟩

def source : String := "0.00 CCC"

def program : ScalarProgram :=
  .monetary ⟨[.amount ⟨false, some ⟨none, some ⟨'.', 2⟩⟩⟩, .literal [' '], .code]⟩

/-- More dollars than any double. -/
def text : List Char := List.replicate 310 '9' ++ ".00 USD".toList

def hasNullAmount (value : Json) : Bool :=
  match value.get? "doubleValue" with
  | some .null => true
  | _ => false

theorem draft_accepted_iff_ledger :
    compile .monetaryAmount (some source) = .ok program ∧ context.utcOffset.natAbs < 86400 ∧
      context.now.localTime.date.InFourDigits ∧
      ∃ value, Accepts (program.scanner context) text value ∧
        ¬ ∃ shown, program.draft value = .ok shown := by
  have hcompile : compile .monetaryAmount (some source) = .ok program := rfl
  have hoffset : context.utcOffset.natAbs < 86400 := by decide
  have hyear : context.now.localTime.date.InFourDigits := by
    unfold Date.InFourDigits
    decide
  have hnull : (read? (program.scanner context) ⟨0, text⟩).any
      (fun x => hasNullAmount x.1 && x.2.rest.isEmpty) = true := by
    decide +kernel
  cases hread : read? (program.scanner context) ⟨0, text⟩ with
  | none =>
    rw [hread] at hnull
    cases hnull
  | some x =>
    obtain ⟨value, offset, rest⟩ := x
    rw [hread, Option.any_some, Bool.and_eq_true, List.isEmpty_iff] at hnull
    obtain ⟨hnull, hrest⟩ := hnull
    dsimp only at hnull hrest
    subst hrest
    have haccepts : Accepts (program.scanner context) text value := accepts_iff.mpr ⟨offset, hread⟩
    refine ⟨hcompile, hoffset, hyear, value, haccepts, ?_⟩
    rw [(draft_accepted_iff hcompile hoffset hyear haccepts).1, not_not]
    refine ⟨rfl, ?_⟩
    unfold hasNullAmount at hnull
    split at hnull
    · assumption
    · cases hnull

end Ledger

end ScalarProgram

end ClauseTemplates
