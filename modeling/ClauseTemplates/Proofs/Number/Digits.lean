import ClauseTemplates.Calendar.Instant
import Mathlib.Data.List.Induction
import Mathlib.Data.List.TakeDrop
import Mathlib.Data.Nat.Digits.Defs

namespace ClauseTemplates

theorem span_append {α : Type} {p : α → Bool} {front rest : List α}
    (hfront : ∀ a ∈ front, p a = true) (hrest : ∀ a ∈ rest.head?, p a = false) :
    (front ++ rest).span p = (front, rest) := by
  rw [List.span_eq_takeWhile_dropWhile, List.takeWhile_append_of_pos hfront,
    List.dropWhile_append_of_pos hfront]
  cases rest with
  | nil => simp
  | cons a rest => simp [hrest a rfl]

namespace Decimal

theorem isDigit_of_mem_digitChars {number : Nat} {c : Char} (h : c ∈ digitChars number) :
    c.isDigit = true :=
  Nat.isDigit_of_mem_toDigits (by decide) (by decide) h

theorem ofDigitChars_digitChars (n : Nat) : ofDigitChars (digitChars n) = n := by
  have hfold : ∀ (cs : List Char) (init : Nat), (∀ c ∈ cs, c.isDigit = true) →
      cs.foldl (fun n c => 10 * n + digitValue c) init = Nat.ofDigitChars 10 cs init := by
    intro cs
    induction cs with
    | nil => intros; rfl
    | cons c cs ih =>
      intro init h
      have hc : digitValue c = c.toNat - '0'.toNat := if_pos (h c List.mem_cons_self)
      rw [List.foldl_cons, hc, ih _ fun d hd => h d (List.mem_cons_of_mem c hd)]
      rfl
  rw [ofDigitChars, hfold _ 0 fun c hc => isDigit_of_mem_digitChars hc]
  exact Nat.ofDigitChars_toDigits (by decide) (by decide)

theorem digitValue_lt (c : Char) : digitValue c < 10 := by
  unfold digitValue
  split
  · rename_i h
    have hdigit : c.toNat ≤ '9'.toNat := (Char.isDigit_iff_toNat.mp h).2
    have hnine : '9'.toNat = 57 := rfl
    have hzero : '0'.toNat = 48 := rfl
    omega
  · decide

theorem ofDigitChars_lt (cs : List Char) : ofDigitChars cs < 10 ^ cs.length := by
  have hfold : ∀ (cs : List Char) (init : Nat),
      cs.foldl (fun n c => 10 * n + digitValue c) init < 10 ^ cs.length * (init + 1) := by
    intro cs
    induction cs with
    | nil => intro init; simp
    | cons c cs ih =>
      intro init
      rw [List.foldl_cons, List.length_cons, Nat.pow_succ, Nat.mul_assoc]
      refine (ih _).trans_le (Nat.mul_le_mul_left _ ?_)
      have hvalue := digitValue_lt c
      omega
  simpa [ofDigitChars] using hfold cs 0

theorem ofDigitChars_zeros (count : Nat) (cs : List Char) :
    ofDigitChars (List.replicate count '0' ++ cs) = ofDigitChars cs := by
  induction count with
  | zero => rfl
  | succ count ih =>
    rw [List.replicate_succ, List.cons_append]
    exact ih

theorem ofDigitChars_concat (cs : List Char) (c : Char) :
    ofDigitChars (cs ++ [c]) = 10 * ofDigitChars cs + digitValue c := by
  simp [ofDigitChars, List.foldl_append]

theorem digitChar_digitValue {c : Char} (h : c.isDigit = true) : (digitValue c).digitChar = c := by
  obtain ⟨hzero, hnine⟩ := Char.isDigit_iff_toNat.mp h
  have hfirst : 48 ≤ c.toNat := hzero
  have hlast : c.toNat ≤ 57 := hnine
  obtain ⟨k, hk⟩ := Nat.exists_eq_add_of_le hfirst
  have hvalue : digitValue c = k := by
    rw [digitValue, if_pos h, hk]
    exact Nat.add_sub_cancel_left 48 k
  have hchar : c = Char.ofNat (48 + k) := by rw [← hk, Char.ofNat_toNat]
  have hchars : ∀ k < 10, k.digitChar = Char.ofNat (48 + k) := by decide
  rw [hvalue, hchars k (by omega), ← hchar]

theorem digitChars_digitValue {c : Char} (h : c.isDigit = true) :
    digitChars (digitValue c) = [c] := by
  rw [digitChars, Nat.toDigits_of_lt_base (digitValue_lt c), digitChar_digitValue h]

theorem digitChars_concat {n : Nat} {c : Char} (hn : 0 < n) (hc : c.isDigit = true) :
    digitChars (10 * n + digitValue c) = digitChars n ++ [c] := by
  rw [← digitChars_digitValue hc]
  exact (Nat.toDigits_append_toDigits (by decide) hn (digitValue_lt c)).symm

/-- Digits are zeros, followed by the digits of the number they write. -/
theorem exists_zeros {digits : List Char} (hne : digits ≠ [])
    (hdigits : ∀ c ∈ digits, c.isDigit = true) :
    ∃ count, digits = List.replicate count '0' ++ digitChars (ofDigitChars digits) := by
  induction digits using List.reverseRecOn with
  | nil => exact absurd rfl hne
  | append_singleton front c ih =>
    have hc : c.isDigit = true := hdigits c (by simp)
    rw [ofDigitChars_concat]
    by_cases hfront : front = []
    · subst hfront
      have hvalue : 10 * ofDigitChars [] + digitValue c = digitValue c := Nat.zero_add _
      exact ⟨0, by rw [hvalue, digitChars_digitValue hc]; rfl⟩
    obtain ⟨count, hcount⟩ := ih hfront fun d hd => hdigits d (by simp [hd])
    rcases Nat.eq_zero_or_pos (ofDigitChars front) with hzero | hpos
    · -- The digit `0` of the number so far is one more zero in front.
      refine ⟨count + 1, ?_⟩
      rw [hzero] at hcount ⊢
      rw [Nat.mul_zero, Nat.zero_add, digitChars_digitValue hc, List.replicate_succ']
      exact congrArg (· ++ [c]) hcount
    · refine ⟨count, ?_⟩
      rw [digitChars_concat hpos hc, ← List.append_assoc, ← hcount]

end Decimal

namespace Instant

variable {width n : Nat}

theorem isDigit_of_mem_padded {c : Char} (h : c ∈ padded width n) : c.isDigit = true := by
  rcases List.mem_append.mp h with h | h
  · rw [List.eq_of_mem_replicate h]
    rfl
  · exact Decimal.isDigit_of_mem_digitChars h

@[simp] theorem ofDigitChars_padded (width n : Nat) : Decimal.ofDigitChars (padded width n) = n :=
  (Decimal.ofDigitChars_zeros _ _).trans (Decimal.ofDigitChars_digitChars n)

theorem le_length_padded : width ≤ (padded width n).length := by
  simp only [padded, List.length_append, List.length_replicate]
  omega

theorem length_padded_le {most : Nat} (hwidth : width ≤ most) (hpos : 0 < most)
    (hn : n < 10 ^ most) : (padded width n).length ≤ most := by
  have hdigits : (Decimal.digitChars n).length ≤ most := Nat.toDigits_length 10 n most hpos hn
  simp only [padded, List.length_append, List.length_replicate]
  omega

theorem length_padded (hpos : 0 < width) (hn : n < 10 ^ width) : (padded width n).length = width :=
  Nat.le_antisymm (length_padded_le (Nat.le_refl width) hpos hn) le_length_padded

end Instant

end ClauseTemplates
