import ClauseTemplates.Proofs.Format.Advances
import ClauseTemplates.Proofs.Scan.Idle

namespace ClauseTemplates

open Scanner

namespace NumberFormat

theorem consumes_digits : Consumes digits := (consumes_satisfying _).many Nat.one_pos

theorem consumes_groupedDigits (mark : Char) : Consumes (groupedDigits mark) := by
  have hgroups : Advances (many (do exactly [mark]; between digit 3 3) 0) :=
    ((advances_exactly [mark]).bind fun _ => (advances_satisfying _).between 3 3).many 0
  have hhead : Consumes (between digit 1 3) := (consumes_satisfying _).between (by omega) (by omega)
  exact hhead.bind fun _ => hgroups.bind fun _ => advances_pure _

/-- A number has a digit, whatever its layout is. -/
theorem consumes_wholePart (format : NumberFormat) : Consumes format.wholePart := by
  refine advances_sign.bind_consumes fun _ => ?_
  dsimp only
  split
  · exact consumes_digits.bind fun _ => advances_pure _
  · exact (consumes_groupedDigits _).bind fun _ => advances_pure _

theorem consumes_decimalPart (format : NumberFormat) : Consumes format.decimalPart := by
  unfold decimalPart
  split
  · refine advances_sign.bind_consumes fun _ => consumes_digits.bind fun _ => ?_
    have hfraction : Advances (do exactly ['.']; digits) :=
      (advances_exactly ['.']).bind fun _ => advances_digits
    exact hfraction.optional.bind fun _ => advances_exponentPart.optional.bind fun _ =>
      advances_pure _
  · refine (consumes_wholePart format).bind fun ⟨_, _⟩ => ?_
    dsimp only
    split
    · exact advances_pure _
    · exact (advances_exactly _).bind fun _ => advances_digits.bind fun _ => advances_pure _

theorem consumes_doubleScanner (format : NumberFormat) : Consumes format.doubleScanner :=
  (consumes_decimalPart format).bind fun _ => advances_pure _

theorem consumes_scanner (format : NumberFormat) : Consumes format.scanner := by
  unfold scanner
  split
  · exact (consumes_wholePart format).tryMap _
  · exact (consumes_doubleScanner format).tryMap _

end NumberFormat

namespace DateTimeFormat

theorem consumes_number {least most : Nat} (hleast : 0 < least) (hmost : 0 < most) :
    Consumes (number least most) :=
  ((consumes_satisfying _).between hleast hmost).bind fun _ => advances_pure _

theorem consumes_field (f : DateField) {p : Scanner Char Int} (hp : Consumes p) :
    Consumes (field f p) := hp.bind fun _ => advances_pure _

theorem width_pos (padded : Bool) : 0 < width padded := by
  cases padded <;> decide

theorem consumes_numericOffset : Consumes numericOffset := by
  have hsign : ∀ choice ∈ [(['+'], (1 : Int)), (['-'], -1)], choice.1 ≠ [] := by decide
  exact (consumes_oneOf hsign).bind fun _ => (advances_number 2 2).bind fun _ =>
    (advances_exactly [':']).optional.bind fun _ => (advances_number 2 2).bind fun _ =>
      advances_pure _

/-- Only the token of an empty text reads nothing. -/
theorem uniform_tokenScanner (token : DateToken) : Uniform (tokenScanner token) := by
  have hmonths : ∀ choice ∈ numbered (monthNames.map String.toList), choice.1 ≠ [] := by decide
  have habbrs : ∀ choice ∈ numbered (monthNames.map fun name => name.toList.take 3),
      choice.1 ≠ [] := by decide
  have hfield {p : Scanner Char Int} (hp : Consumes p) (f : DateField) : Uniform (field f p) :=
    (consumes_field f hp).uniform
  have hdigits {least most : Nat} (hleast : 0 < least) (hmost : 0 < most) (f : DateField) :
      Uniform (field f (number least most)) := hfield (consumes_number hleast hmost) f
  cases token with
  | literal text =>
    exact (uniform_exactly text).bind (advances_exactly text) (fun _ => uniform_pure _)
      fun _ => advances_pure _
  | fullYear => exact hdigits (by decide) (by decide) _
  | shortYear =>
    exact hfield ((consumes_number (by decide) (by decide)).bind fun _ => advances_pure _) _
  | monthName => exact hfield (consumes_oneOf hmonths) _
  | monthAbbr => exact hfield (consumes_oneOf habbrs) _
  | month padded => exact hdigits (width_pos padded) (by decide) _
  | day padded => exact hdigits (width_pos padded) (by decide) _
  | hour padded => exact hdigits (width_pos padded) (by decide) _
  | hour12 padded => exact hdigits (width_pos padded) (by decide) _
  | minute => exact hdigits (by decide) (by decide) _
  | second => exact hdigits (by decide) (by decide) _
  | millis => exact hdigits (by decide) (by decide) _
  | offset =>
    have hz : Consumes (do exactly ['Z']; pure (0 : Int)) :=
      (consumes_exactly (by decide)).bind fun _ => advances_pure _
    exact hfield (hz.orElse consumes_numericOffset) _
  | meridiem upper =>
    refine hfield (consumes_oneOf ?_) _
    cases upper <;> decide

theorem uniform_fieldScanner (tokens : List DateToken) : Uniform (fieldScanner tokens) := by
  induction tokens with
  | nil => exact uniform_pure []
  | cons token rest ih =>
    have hrest (found : Option (DateField × Int)) :
        Uniform (fieldScanner rest >>= fun more => pure (found.toList ++ more)) :=
      ih.bind (advances_fieldScanner rest) (fun _ => uniform_pure _) fun _ => advances_pure _
    exact (uniform_tokenScanner token).bind (advances_tokenScanner token) hrest fun _ =>
      (advances_fieldScanner rest).bind fun _ => advances_pure _

end DateTimeFormat

namespace MonetaryFormat

theorem uniform_tokenScanner (token : MoneyToken) : Uniform (tokenScanner token) := by
  cases token with
  | literal text =>
    exact (uniform_exactly text).bind (advances_exactly text) (fun _ => uniform_pure _)
      fun _ => advances_pure _
  | amount format =>
    exact ((NumberFormat.consumes_doubleScanner format).bind fun _ => advances_pure _).uniform
  | code =>
    refine ((consumes_oneOf ?_).bind fun _ => advances_pure _).uniform
    decide
  | symbol =>
    refine ((consumes_oneOf ?_).bind fun _ => advances_pure _).uniform
    decide

theorem uniform_partScanner (tokens : List MoneyToken) : Uniform (partScanner tokens) := by
  induction tokens with
  | nil => exact uniform_pure []
  | cons token rest ih =>
    have hrest (part : Part) : Uniform (partScanner rest >>= fun more => pure (part :: more)) :=
      ih.bind (advances_partScanner rest) (fun _ => uniform_pure _) fun _ => advances_pure _
    exact (uniform_tokenScanner token).bind (advances_tokenScanner token) hrest fun _ =>
      (advances_partScanner rest).bind fun _ => advances_pure _

end MonetaryFormat

theorem ScalarProgram.consumes_quotedScanner : Consumes quotedScanner := by
  intro c s next h
  have hquoted : Text.quoted s ≠ [] := by simp [Text.quoted]
  exact ⟨Text.quoted s, hquoted, read?_quotedScanner_passes h⟩

/-- A value that is shown by no text is shown by none everywhere. -/
theorem ScalarProgram.uniform_scanner (context : ScanContext) (program : ScalarProgram) :
    Uniform (program.scanner context) := by
  cases program with
  | string => exact (consumes_quotedScanner.bind fun _ => advances_pure _).uniform
  | boolean =>
    have htrue : Consumes (do exactly "true".toList; pure (Json.bool true)) :=
      (consumes_exactly (by decide)).bind fun _ => advances_pure _
    have hfalse : Consumes (do exactly "false".toList; pure (Json.bool false)) :=
      (consumes_exactly (by decide)).bind fun _ => advances_pure _
    exact (htrue.orElse hfalse).uniform
  | number format => exact format.consumes_scanner.uniform
  | dateTime format => exact (DateTimeFormat.uniform_fieldScanner _).tryMap _
  | monetary format => exact (MonetaryFormat.uniform_partScanner _).tryMap _

end ClauseTemplates
