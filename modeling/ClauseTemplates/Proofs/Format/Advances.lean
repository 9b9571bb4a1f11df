import ClauseTemplates.Proofs.Format.Quoted

namespace ClauseTemplates

open Scanner

namespace NumberFormat

theorem advances_digits : Advances digits := (advances_satisfying _).many 1

theorem advances_sign : Advances sign :=
  (advances_exactly ['-']).optional.bind fun _ => advances_pure _

theorem advances_groupedDigits (mark : Char) : Advances (groupedDigits mark) :=
  ((advances_satisfying _).between 1 3).bind fun _ =>
    (((advances_exactly [mark]).bind fun _ => (advances_satisfying _).between 3 3).many 0).bind
      fun _ => advances_pure _

theorem advances_wholePart (format : NumberFormat) : Advances format.wholePart := by
  refine advances_sign.bind fun _ => ?_
  dsimp only
  split
  · exact advances_digits.bind fun _ => advances_pure _
  · exact (advances_groupedDigits _).bind fun _ => advances_pure _

theorem advances_exponentPart : Advances exponentPart :=
  (advances_among _).bind fun _ => (advances_among _).optional.bind fun _ =>
    advances_digits.bind fun _ => advances_pure _

theorem advances_decimalPart (format : NumberFormat) : Advances format.decimalPart := by
  unfold decimalPart
  split
  · refine advances_sign.bind fun _ => advances_digits.bind fun _ => ?_
    refine Advances.bind (Advances.optional ?_) fun _ => ?_
    · exact (advances_exactly ['.']).bind fun _ => advances_digits
    · exact advances_exponentPart.optional.bind fun _ => advances_pure _
  · refine (advances_wholePart format).bind fun ⟨_, _⟩ => ?_
    dsimp only
    split
    · exact advances_pure _
    · exact (advances_exactly _).bind fun _ => advances_digits.bind fun _ => advances_pure _

theorem advances_doubleScanner (format : NumberFormat) : Advances format.doubleScanner :=
  (advances_decimalPart format).bind fun _ => advances_pure _

theorem advances_scanner (format : NumberFormat) : Advances format.scanner := by
  unfold scanner
  split
  · exact (advances_wholePart format).tryMap _
  · exact (advances_doubleScanner format).tryMap _

end NumberFormat

namespace DateTimeFormat

theorem advances_number (least most : Nat) : Advances (number least most) :=
  ((advances_satisfying _).between least most).bind fun _ => advances_pure _

theorem advances_field (f : DateField) {p : Scanner Char Int} (hp : Advances p) :
    Advances (field f p) := hp.bind fun _ => advances_pure _

theorem advances_numericOffset : Advances numericOffset :=
  (advances_oneOf _).bind fun _ => (advances_number 2 2).bind fun _ =>
    (advances_exactly [':']).optional.bind fun _ => (advances_number 2 2).bind fun _ =>
      advances_pure _

theorem advances_tokenScanner (token : DateToken) : Advances (tokenScanner token) := by
  cases token with
  | literal text => exact (advances_exactly text).bind fun _ => advances_pure _
  | shortYear =>
    exact advances_field _ ((advances_number 2 2).bind fun _ => advances_pure _)
  | monthName => exact advances_field _ (advances_oneOf _)
  | monthAbbr => exact advances_field _ (advances_oneOf _)
  | offset =>
    exact advances_field _ (((advances_exactly ['Z']).bind fun _ => advances_pure _).orElse
      advances_numericOffset)
  | meridiem upper => exact advances_field _ (advances_oneOf _)
  | _ => exact advances_field _ (advances_number _ _)

theorem advances_fieldScanner (tokens : List DateToken) : Advances (fieldScanner tokens) := by
  induction tokens with
  | nil => exact advances_pure []
  | cons token rest ih =>
    exact (advances_tokenScanner token).bind fun _ => ih.bind fun _ => advances_pure _

end DateTimeFormat

namespace MonetaryFormat

theorem advances_tokenScanner (token : MoneyToken) : Advances (tokenScanner token) := by
  cases token with
  | literal text => exact (advances_exactly text).bind fun _ => advances_pure _
  | amount format =>
    exact (NumberFormat.advances_doubleScanner format).bind fun _ => advances_pure _
  | code => exact (advances_oneOf _).bind fun _ => advances_pure _
  | symbol => exact (advances_oneOf _).bind fun _ => advances_pure _

theorem advances_partScanner (tokens : List MoneyToken) : Advances (partScanner tokens) := by
  induction tokens with
  | nil => exact advances_pure []
  | cons token rest ih =>
    exact (advances_tokenScanner token).bind fun _ => ih.bind fun _ => advances_pure _

end MonetaryFormat

theorem ScalarProgram.advances_scanner (context : ScanContext) (program : ScalarProgram) :
    Advances (program.scanner context) := by
  cases program with
  | string => exact advances_quotedScanner.bind fun _ => advances_pure _
  | boolean =>
    exact ((advances_exactly _).bind fun _ => advances_pure _).orElse
      ((advances_exactly _).bind fun _ => advances_pure _)
  | number format => exact format.advances_scanner
  | dateTime format => exact (DateTimeFormat.advances_fieldScanner _).tryMap _
  | monetary format => exact (MonetaryFormat.advances_partScanner _).tryMap _

end ClauseTemplates
