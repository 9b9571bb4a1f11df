import ClauseTemplates.Proofs.Format.Amounts
import ClauseTemplates.Proofs.Number.Whole

namespace ClauseTemplates

open Scan Scanner

namespace NumberFormat

section

variable {layout : NumberLayout} {digits body : List Char} {mark : Option Char} {negative : Bool}
  {cursor next : Cursor Char}

theorem length_flatten_le (mark : Char) (groups : List (List Char)) :
    groups.flatten.length ≤ (groups.flatMap (mark :: ·)).length := by
  induction groups with
  | nil => exact Nat.le_refl 0
  | cons group groups ih =>
    rw [List.flatten_cons, List.flatMap_cons, List.length_append, List.length_append,
      List.length_cons]
    omega

theorem LaidOut.length_le (h : LaidOut mark body digits) : digits.length ≤ body.length := by
  cases h with
  | plain hne hdigits => exact Nat.le_refl _
  | @grouped mark head groups hne hlength hdigits hgroups =>
    rw [List.length_append, List.length_append]
    exact Nat.add_le_add_left (length_flatten_le mark groups) _

/-- A number in a layout has no more digits than the text that it is read from. -/
theorem decimalPart_some
    (h : read? (decimalPart ⟨false, some layout⟩) cursor = some ((negative, digits), next)) :
    ∃ n places, WrittenJson.decimalOf digits = ⟨n, -((places : Nat) : Int)⟩ ∧
      n < power 10 cursor.rest.length := by
  unfold decimalPart at h
  dsimp only at h
  rw [read?_bind] at h
  obtain ⟨⟨⟨found, whole⟩, between⟩, hwhole, h⟩ := Option.bind_eq_some_iff.mp h
  obtain ⟨body, ⟨hbody, -⟩, hlaid⟩ := read?_wholePart_some hwhole
  obtain ⟨-, -, hwholes⟩ := laidOut_iff.mp hlaid
  have hlength := hlaid.length_le
  have hpassed := congrArg List.length hbody
  rw [List.length_append, List.length_append] at hpassed
  have hbound : ∀ cs : List Char, cs.length ≤ cursor.rest.length →
      Decimal.ofDigitChars cs < power 10 cursor.rest.length := fun cs hle =>
    (Decimal.ofDigitChars_lt cs).trans_le (power_le (by decide) hle)
  dsimp only at h
  split at h
  · cases h
    exact ⟨_, 0, WrittenJson.decimalOf_plain hwholes, hbound _ (by omega)⟩
  · rw [read?_bind] at h
    obtain ⟨⟨_, behind⟩, hpoint, h⟩ := Option.bind_eq_some_iff.mp h
    rw [read?_bind] at h
    obtain ⟨⟨fraction, last⟩, hfraction, h⟩ := Option.bind_eq_some_iff.mp h
    cases h
    obtain ⟨⟨hmore, -⟩, -, hfractions⟩ := read?_digits_some hfraction
    have hpoint := congrArg List.length (read?_exactly_some hpoint).1
    have hmore := congrArg List.length hmore
    rw [List.length_append] at hpoint hmore
    refine ⟨_, _, WrittenJson.decimalOf_point hwholes hfractions, hbound _ ?_⟩
    rw [List.length_append]
    dsimp only at hpoint hmore ⊢
    omega

/-- Texts of at most 307 characters have no room for a number past the range of doubles. -/
theorem doubleScanner_some {x : Option Double}
    (h : read? (doubleScanner ⟨false, some layout⟩) cursor = some (x, next))
    (hshort : cursor.rest.length ≤ 307) : ∃ w, x = some w := by
  unfold doubleScanner at h
  rw [read?_bind] at h
  obtain ⟨⟨⟨found, digits⟩, between⟩, hdigits, h⟩ := Option.bind_eq_some_iff.mp h
  cases h
  obtain ⟨n, places, hdecimal, hn⟩ := decimalPart_some hdigits
  have hlimit : power 10 307 ≤ power 2 1023 := by decide +kernel
  have hsmall : n ≤ power 2 1023 := (hn.le.trans (power_le (by decide) hshort)).trans hlimit
  have hrange : n * Double.unitsPerOne ≤ (Double.largest false).magnitude * power 10 places :=
    (Double.units_le_largest hsmall).trans
      (Nat.le_mul_of_pos_right _ (power_pos (by decide) places))
  obtain ⟨w, hw, -⟩ := Decimal.exists_nearest hrange found
  exact ⟨w, by rw [hdecimal, hw]⟩

end

section

variable {source : Option (List Char)} {format : NumberFormat} {text : List Char} {value : Json}

theorem integral_double (h : double source = .ok format) : format.integral = false := by
  cases source with
  | none =>
    cases h
    rfl
  | some pattern =>
    obtain ⟨layout, rfl, -⟩ := double_eq_ok h
    rfl

theorem draft_double (h : format.integral = false) (x : Double) :
    format.draft (.double x) = .ok (format.writtenDouble x) := by
  unfold draft
  rw [h]
  rfl

/-- What is read for a double is finite. -/
theorem double_of_accepts (h : double source = .ok format)
    (haccepts : Accepts format.scanner text value) : ∃ x, value = .double x := by
  obtain ⟨last, hread⟩ := accepts_iff.mp haccepts
  unfold scanner at hread
  rw [integral_double h, if_neg Bool.false_ne_true] at hread
  obtain ⟨found, -, hvalue⟩ := read?_tryMap_eq_some.mp hread
  cases found with
  | none => cases hvalue
  | some x =>
    cases hvalue
    exact ⟨x, rfl⟩

end

end NumberFormat

namespace MonetaryFormat

section

variable {format : MonetaryFormat} {code : String} {value : Json} {x : Double}

theorem currencySymbol?_isSome :
    ∀ x ∈ currencySymbols, (currencySymbol? x.1).isSome = true := by
  decide

/-- A currency with all the names that a format shows has a text in it. -/
theorem exists_draft (h : ∀ token ∈ format.tokens, ∃ text, tokenText x code token = .ok text) :
    ∃ shown, format.draft (amountRecord (.double x) code) = .ok shown := by
  choose! text htext using h
  refine ⟨_, draft_eq_ok.mpr ⟨x, code, format.tokens.map text, ?_, ?_, ?_, rfl⟩⟩
  · rw [get?_amountRecord]
    rfl
  · rw [get?_amountRecord]
    rfl
  · rw [List.forall₂_map_right_iff, List.forall₂_same]
    exact htext

theorem draft_read_iff {source : Option (List Char)} {text : List Char}
    (hcompile : compile source = .ok format) (haccepts : Accepts format.scanner text value) :
    ((∃ shown, format.draft value = .ok shown) ↔ value.get? "doubleValue" ≠ some .null) ∧
      (text.length ≤ 307 → value.get? "doubleValue" ≠ some .null) := by
  obtain ⟨last, hread⟩ := accepts_iff.mp haccepts
  obtain ⟨parts, hparts, hvalue⟩ := read?_tryMap_eq_some.mp hread
  obtain ⟨x, code, rfl, hamount, -, hcurrency⟩ := assemble_parts hvalue
  obtain ⟨htokens, hfound⟩ := finds_partScanner (Nat.le_refl text.length) hparts
  have hnumber : (amountRecord ((x.map Json.double).getD .null) code).get? "doubleValue" =
      some ((x.map Json.double).getD .null) := by
    rw [get?_amountRecord]
    rfl
  rw [hnumber]
  constructor
  · cases x with
    | none =>
      refine iff_of_false ?_ (not_not_intro rfl)
      rintro ⟨shown, hshown⟩
      obtain ⟨y, -, -, hy, -⟩ := draft_eq_ok.mp hshown
      rw [hnumber] at hy
      cases hy
    | some y =>
      refine iff_of_true (exists_draft fun token htoken => ?_) nofun
      cases token with
      | symbol =>
        -- a symbol was read for the one currency that is named, so this one has a symbol
        obtain ⟨part, hpart, known, hknown, rfl⟩ := htokens _ htoken
        obtain rfl : known.1 = code := hcurrency _ hpart
        have hsome := currencySymbol?_isSome known hknown
        obtain ⟨symbol, hsymbol⟩ := Option.isSome_iff_exists.mp hsome
        unfold tokenText
        rw [hsymbol]
        exact ⟨_, rfl⟩
      | _ => exact ⟨_, rfl⟩
  · intro hshort
    obtain ⟨token, htoken, hfinds⟩ := hfound _ hamount
    cases token with
    | amount number =>
      obtain ⟨layout, rfl, -⟩ := (compile_eq_ok hcompile).1 _ htoken
      obtain ⟨y, cursor, next, hsame, hlength, hdouble⟩ := hfinds
      cases hsame
      obtain ⟨w, rfl⟩ := NumberFormat.doubleScanner_some hdouble (hlength.trans hshort)
      nofun
    | literal text => cases hfinds
    | code =>
      obtain ⟨other, -, hsame⟩ := hfinds
      cases hsame
    | symbol =>
      obtain ⟨other, -, hsame⟩ := hfinds
      cases hsame

end

end MonetaryFormat

end ClauseTemplates
