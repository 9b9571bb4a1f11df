import ClauseTemplates.Proofs.Format.Grouped

namespace ClauseTemplates.NumberFormat

open Scan Scanner

def signed (negative : Bool) (n : Nat) : Int := if negative then -(n : Int) else n

theorem signed_natAbs (v : Int) : signed (decide (v < 0)) v.natAbs = v := by
  unfold signed
  split
  · rename_i h
    have := of_decide_eq_true h
    omega
  · rename_i h
    have : ¬ v < 0 := fun hv => h (decide_eq_true hv)
    omega

@[simp] theorem natAbs_signed (negative : Bool) (n : Nat) : (signed negative n).natAbs = n := by
  unfold signed
  split <;> omega

/-- A number and its sign tell whether there is a minus, except for zero. -/
theorem signed_negative (negative : Bool) (n : Nat) :
    negative = decide (signed negative n < 0) ∨ signed negative n = 0 := by
  cases negative with
  | false =>
    have h : ¬ signed false n < 0 := by simp [signed]
    exact .inl (decide_eq_false h).symm
  | true =>
    rcases Nat.eq_zero_or_pos n with rfl | hpos
    · exact .inr rfl
    · have h : signed true n < 0 := by
        unfold signed
        rw [if_pos rfl]
        omega
      exact .inl (decide_eq_true h).symm

theorem toInt64_eq_ok {part : Bool × List Char} {value : Json} :
    toInt64 part = .ok value ↔
      Json.inInt64 (signed part.1 (Decimal.ofDigitChars part.2)) = true ∧
        value = .int (signed part.1 (Decimal.ofDigitChars part.2)) := by
  unfold toInt64 Json.inInt64
  dsimp only
  rw [decide_eq_true_iff, ← signed]
  split
  · simp_all
  · split <;> simp_all [eq_comm]

section

variable {source : Option (List Char)} {format : NumberFormat} {v : Int}
  {text body digits : List Char} {value : Json}

theorem integer_eq_ok (h : integer source = .ok format) :
    format.integral = true ∧ ∀ m ∈ format.mark?, m.isDigit = false := by
  unfold integer at h
  split at h
  · cases h
    exact ⟨rfl, by simp [mark?]⟩
  · cases h
    exact ⟨rfl, by simp [mark?]⟩
  · rename_i mark
    split at h
    · cases h
    · rename_i hmark
      cases h
      refine ⟨rfl, ?_⟩
      rintro _ ⟨rfl⟩
      exact Bool.not_eq_true _ ▸ hmark
  · cases h

theorem scanner_of_integral (h : format.integral = true) : format.scanner = format.integerScanner := by
  unfold scanner
  rw [if_pos h]

theorem laidOut_digitChars (mark : Option Char) (n : Nat) :
    LaidOut mark (grouped mark (Decimal.digitChars n)) (Decimal.digitChars n) :=
  laidOut_iff.mpr ⟨rfl, Nat.toDigits_ne_nil, fun _ hc => Decimal.isDigit_of_mem_digitChars hc⟩

theorem writtenInteger_eq (format : NumberFormat) (v : Int) :
    format.writtenInteger v =
      minus (decide (v < 0)) ++ grouped format.mark? (Decimal.digitChars v.natAbs) := by
  unfold writtenInteger minus
  dsimp only
  rw [mark?]
  by_cases hv : v < 0 <;> simp [hv]

theorem draft_int (h : format.integral = true) (hv : Json.inInt64 v = true) :
    format.draft (.int v) =
      .ok (minus (decide (v < 0)) ++ grouped format.mark? (Decimal.digitChars v.natAbs)) := by
  unfold draft integerOf? Json.int64?
  simp only [h, hv, if_true, writtenInteger_eq]

/-- A laid out number is read as its value where this fits, in front of what cannot go on with it. -/
theorem read?_integerScanner (hmark : ∀ m ∈ format.mark?, m.isDigit = false)
    (htext : LaidOut format.mark? body digits) {rest : List Char} (hrest : Ended format.mark? rest)
    {negative : Bool} (hfits : Json.inInt64 (signed negative (Decimal.ofDigitChars digits)) = true)
    (offset : Nat) :
    read? format.integerScanner ⟨offset, minus negative ++ body ++ rest⟩ =
      some (.int (signed negative (Decimal.ofDigitChars digits)),
        ⟨offset + (minus negative ++ body).length, rest⟩) := by
  have hvalue : toInt64 (negative, digits) = .ok (.int (signed negative (Decimal.ofDigitChars digits))) :=
    toInt64_eq_ok.mpr ⟨hfits, rfl⟩
  unfold integerScanner
  exact read?_tryMap_eq_some.mpr ⟨_, read?_wholePart hmark htext hrest negative offset, hvalue⟩

theorem read?_scanner_draft (h : integer source = .ok format) (hv : Json.inInt64 v = true) :
    ∃ text, format.draft (.int v) = .ok text ∧ ∀ rest, Ended format.mark? rest → ∀ offset,
      read? format.scanner ⟨offset, text ++ rest⟩ = some (.int v, ⟨offset + text.length, rest⟩) := by
  obtain ⟨hintegral, hmark⟩ := integer_eq_ok h
  refine ⟨_, draft_int hintegral hv, fun rest hrest offset => ?_⟩
  have hvalue : signed (decide (v < 0)) (Decimal.ofDigitChars (Decimal.digitChars v.natAbs)) = v := by
    rw [Decimal.ofDigitChars_digitChars, signed_natAbs]
  have hfits : Json.inInt64 (signed (decide (v < 0))
      (Decimal.ofDigitChars (Decimal.digitChars v.natAbs))) = true := by
    rwa [hvalue]
  have hlaid := laidOut_digitChars format.mark? v.natAbs
  have hread := read?_integerScanner hmark hlaid hrest hfits offset
  rwa [hvalue, ← scanner_of_integral hintegral] at hread

theorem accepts_integer_iff (h : integer source = .ok format) :
    Accepts format.scanner text value ↔ ∃ negative body digits, text = minus negative ++ body ∧
      LaidOut format.mark? body digits ∧
      Json.inInt64 (signed negative (Decimal.ofDigitChars digits)) = true ∧
      value = .int (signed negative (Decimal.ofDigitChars digits)) := by
  obtain ⟨hintegral, hmark⟩ := integer_eq_ok h
  rw [accepts_iff, scanner_of_integral hintegral]
  constructor
  · rintro ⟨offset, hread⟩
    unfold integerScanner at hread
    obtain ⟨⟨negative, digits⟩, hpart, hvalue⟩ := read?_tryMap_eq_some.mp hread
    obtain ⟨body, ⟨htext, -⟩, hlaid⟩ := read?_wholePart_some hpart
    obtain ⟨hfits, rfl⟩ := toInt64_eq_ok.mp hvalue
    exact ⟨negative, body, digits, by simpa using htext, hlaid, hfits, rfl⟩
  · rintro ⟨negative, body, digits, rfl, hlaid, hfits, rfl⟩
    have hread := read?_integerScanner hmark hlaid (ended_nil _) hfits 0
    rw [List.append_nil] at hread
    exact ⟨_, hread⟩

/-- Drafted again, a text loses only zeros in front, with their marks, and the sign of a zero. -/
theorem draft_of_accepts (h : integer source = .ok format) (haccepts : Accepts format.scanner text value) :
    ∃ v negative zeros body, value = .int v ∧
      format.draft value = .ok (minus (decide (v < 0)) ++ body) ∧
      text = minus negative ++ zeros ++ body ∧ (∀ c ∈ zeros, c = '0' ∨ format.mark? = some c) ∧
      (negative = decide (v < 0) ∨ v = 0) := by
  obtain ⟨hintegral, -⟩ := integer_eq_ok h
  obtain ⟨negative, laid, digits, rfl, hlaid, hfits, rfl⟩ := (accepts_integer_iff h).mp haccepts
  obtain ⟨rfl, hne, hdigits⟩ := laidOut_iff.mp hlaid
  obtain ⟨count, hcount⟩ := Decimal.exists_zeros hne hdigits
  have hshown : Decimal.digitChars (Decimal.ofDigitChars digits) ≠ [] := Nat.toDigits_ne_nil
  obtain ⟨zeros, hzeros, hmarks⟩ := grouped_zeros format.mark? hshown count
  refine ⟨_, negative, zeros, _, rfl, draft_int hintegral hfits, ?_, hmarks,
    signed_negative negative _⟩
  rw [natAbs_signed, List.append_assoc, ← hzeros, ← hcount]

/-- Integers are read back from what is drafted for them, the texts that are read are those of the
layout whose number fits, and drafting such a number gives its text again up to zeros in front. -/
theorem scanner_exact (h : integer source = .ok format) :
    (∀ v, Json.inInt64 v = true → ∃ text, format.draft (.int v) = .ok text ∧
      ∀ rest, Ended format.mark? rest → ∀ offset,
        read? format.scanner ⟨offset, text ++ rest⟩ =
          some (.int v, ⟨offset + text.length, rest⟩)) ∧
    (∀ text value, Accepts format.scanner text value ↔
      ∃ negative body digits, text = minus negative ++ body ∧ LaidOut format.mark? body digits ∧
        Json.inInt64 (signed negative (Decimal.ofDigitChars digits)) = true ∧
        value = .int (signed negative (Decimal.ofDigitChars digits))) ∧
    ∀ text value, Accepts format.scanner text value →
      ∃ v negative zeros body, value = .int v ∧
        format.draft value = .ok (minus (decide (v < 0)) ++ body) ∧
        text = minus negative ++ zeros ++ body ∧ (∀ c ∈ zeros, c = '0' ∨ format.mark? = some c) ∧
        (negative = decide (v < 0) ∨ v = 0) :=
  ⟨fun _ => read?_scanner_draft h, fun _ _ => accepts_integer_iff h, fun _ _ => draft_of_accepts h⟩

end

namespace Dashed

def source : List Char := "0-0".toList

def format : NumberFormat := ⟨true, some ⟨some '-', none⟩⟩

def text : List Char := "-0-012".toList

/-- The mark between groups is the minus itself, and behind the number it stands once more. -/
theorem scanner_exact_dashed :
    integer (some source) = .ok format ∧
      (∃ text, format.draft (.int (-1234)) = .ok text ∧
        read? format.scanner ⟨0, text ++ "-56".toList⟩ =
          some (.int (-1234), ⟨0 + text.length, "-56".toList⟩)) ∧
      Accepts format.scanner text (.int (-12)) ∧
      ∃ v negative zeros body, Json.int (-12) = .int v ∧
        format.draft (.int (-12)) = .ok (minus (decide (v < 0)) ++ body) ∧
        text = minus negative ++ zeros ++ body ∧ (∀ c ∈ zeros, c = '0' ∨ format.mark? = some c) ∧
        (negative = decide (v < 0) ∨ v = 0) := by
  have hcompile : integer (some source) = .ok format := rfl
  have hended : Ended format.mark? "-56".toList := by
    refine ⟨by simp, ?_⟩
    intro m _ digits hgroup hprefix
    have hlength : (m :: digits).length ≤ 3 := hprefix.length_le
    rw [List.length_cons, hgroup.1] at hlength
    omega
  have hlaid : LaidOut format.mark? "0-012".toList "0012".toList :=
    laidOut_iff.mpr ⟨rfl, by decide, List.all_eq_true.mp rfl⟩
  obtain ⟨hreads, haccepts, hredrafts⟩ := scanner_exact hcompile
  obtain ⟨shown, hdraft, hread⟩ := hreads (-1234) rfl
  have haccepted : Accepts format.scanner text (.int (-12)) :=
    (haccepts text (.int (-12))).mpr ⟨true, _, _, rfl, hlaid, rfl, rfl⟩
  exact ⟨hcompile, ⟨shown, hdraft, hread _ hended 0⟩, haccepted, hredrafts text _ haccepted⟩

end Dashed

end ClauseTemplates.NumberFormat
