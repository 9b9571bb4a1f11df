import ClauseTemplates.Proofs.Number.Digits
import Mathlib.Data.Nat.Dist

namespace ClauseTemplates

section

variable {base m n : Nat}

theorem power_pos (hbase : 0 < base) (n : Nat) : 0 < power base n := Nat.pow_pos hbase

theorem power_add (base m n : Nat) : power base (m + n) = power base m * power base n :=
  Nat.pow_add base m n

theorem power_le (hbase : 0 < base) (h : m ≤ n) : power base m ≤ power base n :=
  Nat.pow_le_pow_right hbase h

/-- Three binary digits are less than a decimal one. -/
theorem power_two_le (n : Nat) : power 2 (3 * n) ≤ power 10 n := by
  calc power 2 (3 * n) = power 8 n := Nat.pow_mul 2 3 n
    _ ≤ power 10 n := Nat.pow_le_pow_left (by decide) n

end

namespace Double

/-- `n` is a nearest integer to `num / den`, and the even one of two that are equally near. -/
structure Rounds (num den n : Nat) : Prop where
  near : 2 * Nat.dist (n * den) num ≤ den
  even : 2 * Nat.dist (n * den) num = den → n % 2 = 0

section

variable {num den m n k : Nat}

theorem rounds_roundHalfEven (hden : 0 < den) : Rounds num den (roundHalfEven num den) := by
  have hsplit : num = num / den * den + num % den := (Nat.div_add_mod' num den).symm
  have hlt : num % den < den := Nat.mod_lt num hden
  have hdown : Nat.dist (num / den * den) num = num % den := by
    unfold Nat.dist
    omega
  have hup : Nat.dist ((num / den + 1) * den) num = den - num % den := by
    unfold Nat.dist
    rw [Nat.succ_mul]
    omega
  unfold roundHalfEven
  dsimp only
  split
  · exact ⟨by omega, by omega⟩
  · split
    · exact ⟨by omega, by omega⟩
    · rcases Nat.mod_two_eq_zero_or_one (num / den) with heven | hodd
      · rw [heven, Nat.add_zero]
        exact ⟨by omega, fun _ => heven⟩
      · rw [hodd]
        exact ⟨by omega, fun _ => by omega⟩

theorem Rounds.le (h : Rounds num den n) (hden : 0 < den) (hnum : num ≤ k * den) : n ≤ k := by
  by_contra hlt
  have hmore : (k + 1) * den ≤ n * den := Nat.mul_le_mul_right den (by omega)
  have hnear := h.near
  unfold Nat.dist at hnear
  rw [Nat.succ_mul] at hmore
  omega

theorem Rounds.ge (h : Rounds num den n) (hden : 0 < den) (hnum : k * den ≤ num) : k ≤ n := by
  by_contra hlt
  have hmore : (n + 1) * den ≤ k * den := Nat.mul_le_mul_right den (by omega)
  have hnear := h.near
  unfold Nat.dist at hnear
  rw [Nat.succ_mul] at hmore
  omega

theorem Rounds.unique (h : Rounds num den m) (h' : Rounds num den n) (hden : 0 < den) : m = n := by
  wlog hle : m ≤ n generalizing m n
  · exact (this h' h (by omega)).symm
  have hnear := h.near
  have hnear' := h'.near
  have heven := h.even
  have heven' := h'.even
  unfold Nat.dist at hnear hnear' heven heven'
  obtain ⟨j, rfl⟩ := Nat.exists_eq_add_of_le hle
  rw [Nat.add_mul] at hnear' heven'
  rcases j with _ | _ | j
  · rfl
  · omega
  · have hmore : (j + 1 + 1) * den = j * den + den + den := by rw [Nat.succ_mul, Nat.succ_mul]
    omega

/-- Of the multiples of `den` the one that is rounded to is nearest. -/
theorem Rounds.nearest (h : Rounds num den n) (j : Nat) :
    Nat.dist (n * den) num ≤ Nat.dist (j * den) num := by
  have hnear := h.near
  unfold Nat.dist at hnear ⊢
  rcases Nat.lt_trichotomy j n with hlt | rfl | hlt
  · have hmore : (j + 1) * den ≤ n * den := Nat.mul_le_mul_right den hlt
    rw [Nat.succ_mul] at hmore
    omega
  · exact Nat.le_refl _
  · have hmore : (n + 1) * den ≤ j * den := Nat.mul_le_mul_right den hlt
    rw [Nat.succ_mul] at hmore
    omega

/-- What lies no further from the integer rounds to it too. -/
theorem Rounds.of_nearer (h : Rounds num den n)
    (hnearer : Nat.dist k (n * den) ≤ Nat.dist num (n * den)) : Rounds k den n := by
  have hnear := h.near
  have heven := h.even
  rw [Nat.dist_comm] at hnear heven
  refine ⟨?_, ?_⟩
  · rw [Nat.dist_comm]
    omega
  · intro htie
    rw [Nat.dist_comm] at htie
    exact heven (by omega)

end

/-- No double lies nearer to `num / den` smallest positive doubles, whatever its sign. -/
def IsNearest (w : Double) (num den : Nat) : Prop :=
  ∀ x : Double, Nat.dist (w.magnitude * den) num ≤ Nat.dist (x.magnitude * den) num

theorem magnitude_eq (x : Double) : ∃ shift, x.magnitude = x.mant * power 2 shift ∧ shift ≤ 2045 ∧
    (shift = 0 ∨ power 2 52 ≤ x.mant) := by
  have hlow := x.exp_ge
  have hhigh := x.exp_le
  refine ⟨(x.exp + 1074).toNat, rfl, by omega, ?_⟩
  rcases x.normal with h | h
  · exact .inl (by omega)
  · exact .inr h

theorem power_units (n : Nat) : power 2 (n + 1074) = power 2 n * unitsPerOne := power_add 2 n 1074

theorem magnitude_largest (negative : Bool) :
    (largest negative).magnitude = (power 2 53 - 1) * power 2 2045 := rfl

theorem magnitude_largest_lt (negative : Bool) :
    (largest negative).magnitude < power 2 (53 + 2045) := by
  rw [magnitude_largest, power_add]
  have hmant : power 2 53 - 1 < power 2 53 := Nat.sub_lt (power_pos (by decide) 53) Nat.zero_lt_one
  exact Nat.mul_lt_mul_of_pos_right hmant (power_pos (by decide) 2045)

theorem magnitude_le (x : Double) (negative : Bool) : x.magnitude ≤ (largest negative).magnitude := by
  obtain ⟨shift, hx, hshift, -⟩ := magnitude_eq x
  rw [hx, magnitude_largest]
  have hmant := x.mant_lt
  exact Nat.mul_le_mul (by omega) (power_le (by decide) hshift)

section

variable {negative : Bool} {mant shift num den : Nat} {w : Double}

theorem ofParts?_eq_some (hmant : mant < power 2 53) (hshift : shift ≤ 2045)
    (hnormal : shift = 0 ∨ power 2 52 ≤ mant) :
    ∃ w, ofParts? negative mant shift = some w := by
  unfold ofParts?
  rw [dif_pos ⟨hmant, hshift, hnormal⟩]
  exact ⟨_, rfl⟩

theorem magnitude_ofParts? (h : ofParts? negative mant shift = some w) :
    w.negative = negative ∧ w.magnitude = mant * power 2 shift := by
  unfold ofParts? at h
  split at h
  · cases h
    refine ⟨rfl, ?_⟩
    unfold magnitude
    dsimp only
    congr 2
    omega
  · cases h

/-- Fifty-three digits tell how often `2 ^ shift` goes into `num / den`, the first of them a one
unless nothing is shifted. -/
structure Scaled (num den shift : Nat) : Prop where
  upper : num < power 2 53 * (den * power 2 shift)
  lower : shift = 0 ∨ power 2 52 * (den * power 2 shift) ≤ num

theorem scaled_log2 (hden : 0 < den) : Scaled num den (Nat.log2 (num / den) - 52) := by
  refine ⟨?_, ?_⟩
  · have hlog : num / den < power 2 (53 + (Nat.log2 (num / den) - 52)) :=
      Nat.lt_log2_self.trans_le (power_le (by decide) (by omega))
    rw [power_add, Nat.div_lt_iff_lt_mul hden] at hlog
    rwa [Nat.mul_comm den, ← Nat.mul_assoc]
  · by_cases hshift : Nat.log2 (num / den) - 52 = 0
    · exact .inl hshift
    · right
      have hne : num / den ≠ 0 := by
        intro hzero
        rw [hzero] at hshift
        exact hshift rfl
      have hlog : power 2 (52 + (Nat.log2 (num / den) - 52)) ≤ num / den :=
        (power_le (by decide) (by omega)).trans (Nat.log2_self_le hne)
      rw [power_add, Nat.le_div_iff_mul_le hden] at hlog
      rwa [Nat.mul_comm den, ← Nat.mul_assoc]

/-- Doubles between powers of two are multiples of one distance, and those below lie at least one
such multiple further away. -/
theorem Scaled.nearest (h : Scaled num den shift) (hround : Rounds num (den * power 2 shift) mant)
    (x : Double) :
    Nat.dist (mant * power 2 shift * den) num ≤ Nat.dist (x.magnitude * den) num := by
  obtain ⟨k, hx, -, hnormal⟩ := magnitude_eq x
  have hgrid : ∀ j, j * power 2 shift * den = j * (den * power 2 shift) := by
    intro j
    rw [Nat.mul_assoc, Nat.mul_comm (power 2 shift)]
  rcases Nat.lt_or_ge k shift with hlt | hge
  · have hlower : power 2 52 * (den * power 2 shift) ≤ num := h.lower.resolve_left (by omega)
    have hmant : x.mant ≤ power 2 53 := Nat.le_of_lt x.mant_lt
    have hbelow : x.magnitude ≤ power 2 52 * power 2 shift := by
      calc x.magnitude = x.mant * power 2 k := hx
        _ ≤ power 2 53 * power 2 k := Nat.mul_le_mul_right _ hmant
        _ = power 2 (53 + k) := (power_add 2 53 k).symm
        _ ≤ power 2 (52 + shift) := power_le (by decide) (by omega)
        _ = power 2 52 * power 2 shift := power_add 2 52 shift
    have hscaled : x.magnitude * den ≤ power 2 52 * (den * power 2 shift) := by
      rw [← hgrid]
      exact Nat.mul_le_mul_right den hbelow
    have hnearest := hround.nearest (power 2 52)
    rw [hgrid]
    unfold Nat.dist at hnearest ⊢
    omega
  · obtain ⟨more, rfl⟩ := Nat.exists_eq_add_of_le hge
    have hmultiple : x.magnitude = x.mant * power 2 more * power 2 shift := by
      rw [hx, Nat.add_comm, power_add, Nat.mul_assoc]
    rw [hmultiple, hgrid, hgrid]
    exact hround.nearest _

theorem Scaled.shift_le (h : Scaled num den shift) (hden : 0 < den)
    (hnum : num ≤ (largest false).magnitude * den) : shift ≤ 2045 := by
  by_contra hgt
  have hlower : power 2 52 * (den * power 2 shift) ≤ num := h.lower.resolve_left (by omega)
  have hmore : power 2 (53 + 2045) ≤ power 2 (52 + shift) := power_le (by decide) (by omega)
  have hbound : num < num := by
    calc num ≤ (largest false).magnitude * den := hnum
      _ < power 2 (53 + 2045) * den := Nat.mul_lt_mul_of_pos_right (magnitude_largest_lt false) hden
      _ ≤ power 2 (52 + shift) * den := Nat.mul_le_mul_right den hmore
      _ = power 2 52 * (den * power 2 shift) := by
        rw [power_add, Nat.mul_assoc, Nat.mul_comm den]
      _ ≤ num := hlower
  exact Nat.lt_irrefl num hbound

/-- A mantissa that is rounded up to `2 ^ 53` is that of the next power of two. -/
theorem ofUnits?_eq_some (h : ofUnits? negative num den = some w) :
    w.negative = negative ∧ w.magnitude =
      roundHalfEven num (den * power 2 (Nat.log2 (num / den) - 52)) *
        power 2 (Nat.log2 (num / den) - 52) := by
  unfold ofUnits? at h
  dsimp only at h
  split at h
  · rename_i hfull
    obtain ⟨hnegative, hmagnitude⟩ := magnitude_ofParts? h
    refine ⟨hnegative, ?_⟩
    rw [hmagnitude, hfull, Nat.add_comm, power_add, ← Nat.mul_assoc, ← power_add]
  · exact magnitude_ofParts? h

theorem isNearest_ofUnits? (hden : 0 < den) (h : ofUnits? negative num den = some w) :
    w.negative = negative ∧ w.IsNearest num den := by
  obtain ⟨hnegative, hmagnitude⟩ := ofUnits?_eq_some h
  have hgrid : 0 < den * power 2 (Nat.log2 (num / den) - 52) :=
    Nat.mul_pos hden (power_pos (by decide) _)
  refine ⟨hnegative, ?_⟩
  intro x
  rw [hmagnitude]
  exact (scaled_log2 hden).nearest (rounds_roundHalfEven hgrid) x

theorem exists_ofUnits? (hden : 0 < den) (hnum : num ≤ (largest false).magnitude * den)
    (negative : Bool) : ∃ w, ofUnits? negative num den = some w := by
  unfold ofUnits?
  dsimp only
  have hscaled : Scaled num den (Nat.log2 (num / den) - 52) := scaled_log2 hden
  generalize Nat.log2 (num / den) - 52 = shift at *
  have hgrid : 0 < den * power 2 shift := Nat.mul_pos hden (power_pos (by decide) shift)
  have hround : Rounds num (den * power 2 shift) (roundHalfEven num (den * power 2 shift)) :=
    rounds_roundHalfEven hgrid
  generalize roundHalfEven num (den * power 2 shift) = mant at *
  have hshift := hscaled.shift_le hden hnum
  have hmant : mant ≤ power 2 53 := hround.le hgrid (Nat.le_of_lt hscaled.upper)
  split
  · rename_i hfull
    have hroom : shift ≠ 2045 := by
      intro hlast
      have hlargest : num ≤ (power 2 53 - 1) * (den * power 2 shift) := by
        rw [magnitude_largest] at hnum
        rwa [hlast, Nat.mul_comm den, ← Nat.mul_assoc]
      have hless := hround.le hgrid hlargest
      have hpos := @power_pos 2 (by decide) 53
      omega
    exact ofParts?_eq_some (by decide) (by omega) (.inr (Nat.le_refl _))
  · apply ofParts?_eq_some
    · omega
    · exact hshift
    · exact hscaled.lower.imp_right fun hlower => hround.ge hgrid hlower

end

end Double

namespace Decimal

open Double

variable {n places : Nat} {negative : Bool}

theorem length_digitChars_le (hplaces : 0 < places) :
    (digitChars n).length ≤ places ↔ n < power 10 places :=
  Nat.length_toDigits_le_iff (by decide) hplaces

theorem toDouble?_eq (hlow : ¬(n = 0 ∨ (⟨n, -(places : Int)⟩ : Decimal).leading < -400))
    (hhigh : ¬400 < (⟨n, -(places : Int)⟩ : Decimal).leading) :
    (⟨n, -(places : Int)⟩ : Decimal).toDouble? negative =
      ofUnits? negative (n * unitsPerOne) (power 10 places) := by
  unfold toDouble?
  rw [if_neg hlow, if_neg hhigh]
  cases places with
  | zero =>
    have hone : n * power 10 0 = n := Nat.mul_one n
    change ofUnits? negative (n * power 10 0 * unitsPerOne) 1 = _
    rw [hone]
    rfl
  | succ places => rfl

/-- Zero is nearest to what lies below half of the smallest positive double. -/
theorem isNearest_zero {num den : Nat} (h : 2 * num ≤ den) (negative : Bool) :
    { zero with negative := negative }.IsNearest num den := by
  intro x
  have hzero : { zero with negative := negative }.magnitude = 0 := Nat.zero_mul _
  rw [hzero, Nat.zero_mul, Nat.dist_zero_left]
  rcases Nat.eq_zero_or_pos x.magnitude with hx | hx
  · rw [hx, Nat.zero_mul, Nat.dist_zero_left]
  · have hmore : den ≤ x.magnitude * den := Nat.le_mul_of_pos_left den hx
    unfold Nat.dist
    omega

/-- A decimal below the first digits that doubles have is less than half of the smallest one. -/
theorem double_le_of_leading (h : (⟨n, -(places : Int)⟩ : Decimal).leading < -400) :
    2 * (n * unitsPerOne) ≤ power 10 places := by
  have hlength : (digitChars n).length + 400 ≤ places := by
    unfold leading at h
    dsimp only at h
    omega
  have hpos : 0 < (digitChars n).length := List.length_pos_iff.mpr Nat.toDigits_ne_nil
  have hn : n < power 10 (digitChars n).length := (length_digitChars_le hpos).mp (Nat.le_refl _)
  have hunit : 2 * unitsPerOne ≤ power 10 400 := by
    have htwo : power 2 1 = 2 := rfl
    have hsplit := power_units 1
    rw [htwo] at hsplit
    rw [← hsplit]
    exact (power_le (by decide) (by decide)).trans (power_two_le 400)
  calc 2 * (n * unitsPerOne) = n * (2 * unitsPerOne) := Nat.mul_left_comm 2 n unitsPerOne
    _ ≤ power 10 (digitChars n).length * power 10 400 := Nat.mul_le_mul (Nat.le_of_lt hn) hunit
    _ = power 10 ((digitChars n).length + 400) := (power_add 10 _ 400).symm
    _ ≤ power 10 places := power_le (by decide) hlength

theorem leading_le (h : n * unitsPerOne ≤ (largest false).magnitude * power 10 places) :
    (⟨n, -(places : Int)⟩ : Decimal).leading ≤ 400 := by
  have hlargest : (largest false).magnitude < power 10 401 * unitsPerOne := by
    have hpower : power 2 1024 ≤ power 10 401 :=
      (power_le (by decide) (by decide)).trans (power_two_le 401)
    calc (largest false).magnitude < power 2 (1024 + 1074) := magnitude_largest_lt false
      _ = power 2 1024 * unitsPerOne := power_units 1024
      _ ≤ power 10 401 * unitsPerOne := Nat.mul_le_mul_right unitsPerOne hpower
  have hunits : 0 < unitsPerOne := power_pos (by decide) 1074
  have hn : n * unitsPerOne < power 10 (401 + places) * unitsPerOne := by
    calc n * unitsPerOne ≤ (largest false).magnitude * power 10 places := h
      _ < power 10 401 * unitsPerOne * power 10 places :=
        Nat.mul_lt_mul_of_pos_right hlargest (power_pos (by decide) places)
      _ = power 10 (401 + places) * unitsPerOne := by
        rw [power_add, Nat.mul_right_comm]
  have hlength : (digitChars n).length ≤ 401 + places :=
    (length_digitChars_le (by omega)).mpr (Nat.lt_of_mul_lt_mul_right hn)
  unfold leading
  dsimp only
  omega

/-- A decimal in the range of doubles is read as a nearest double with its sign. -/
theorem exists_nearest (hrange : n * unitsPerOne ≤ (largest false).magnitude * power 10 places)
    (negative : Bool) :
    ∃ w, (⟨n, -(places : Int)⟩ : Decimal).toDouble? negative = some w ∧ w.negative = negative ∧
      w.IsNearest (n * unitsPerOne) (power 10 places) := by
  by_cases hlow : n = 0 ∨ (⟨n, -(places : Int)⟩ : Decimal).leading < -400
  · have hsmall : 2 * (n * unitsPerOne) ≤ power 10 places := by
      rcases hlow with hzero | hleading
      · rw [hzero, Nat.zero_mul]
        exact Nat.zero_le _
      · exact double_le_of_leading hleading
    refine ⟨{ zero with negative := negative }, ?_, rfl, isNearest_zero hsmall negative⟩
    unfold toDouble?
    rw [if_pos hlow]
  · have hhigh := leading_le hrange
    rw [toDouble?_eq hlow (by omega)]
    have hden : 0 < power 10 places := power_pos (by decide) places
    obtain ⟨w, hw⟩ := exists_ofUnits? hden hrange negative
    exact ⟨w, hw, isNearest_ofUnits? hden hw⟩

end Decimal

namespace Double

variable {v w : Double} {places : Nat}

/-- A double to a number of places is in the range of doubles. -/
theorem roundHalfEven_le (v : Double) (places : Nat) :
    roundHalfEven (v.magnitude * power 10 places) unitsPerOne * unitsPerOne ≤
      (largest false).magnitude * power 10 places := by
  have hunits : 0 < unitsPerOne := power_pos (by decide) 1074
  -- The largest double is an integer, so that it is rounded to itself.
  have hlargest : (largest false).magnitude * power 10 places =
      (power 2 53 - 1) * power 2 971 * power 10 places * unitsPerOne := by
    have hsplit : power 2 2045 = power 2 971 * unitsPerOne := power_units 971
    rw [magnitude_largest, hsplit, ← Nat.mul_assoc, Nat.mul_right_comm]
  rw [hlargest]
  apply Nat.mul_le_mul_right
  apply (rounds_roundHalfEven hunits).le hunits
  rw [← hlargest]
  exact Nat.mul_le_mul_right (power 10 places) (magnitude_le v false)

/-- A nearest double to a double that is rounded to some places is rounded to the same. -/
theorem roundHalfEven_of_isNearest
    (h : w.IsNearest (roundHalfEven (v.magnitude * power 10 places) unitsPerOne * unitsPerOne)
      (power 10 places)) :
    roundHalfEven (w.magnitude * power 10 places) unitsPerOne =
      roundHalfEven (v.magnitude * power 10 places) unitsPerOne := by
  have hunits : 0 < unitsPerOne := power_pos (by decide) 1074
  have hround : Rounds (v.magnitude * power 10 places) unitsPerOne
      (roundHalfEven (v.magnitude * power 10 places) unitsPerOne) := rounds_roundHalfEven hunits
  exact (rounds_roundHalfEven hunits).unique (hround.of_nearer (h v)) hunits

end Double

end ClauseTemplates
