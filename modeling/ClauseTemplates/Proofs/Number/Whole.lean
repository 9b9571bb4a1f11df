import ClauseTemplates.Proofs.Number.Nearest

namespace ClauseTemplates.Double

theorem unitsPerOne_pos : 0 < unitsPerOne := power_pos (by decide) 1074

section

variable {x y w : Double}

theorem isZero_iff (x : Double) : x.isZero = true ↔ x.magnitude = 0 := by
  have hpower : power 2 (x.exp + 1074).toNat ≠ 0 := Nat.ne_of_gt (power_pos (by decide) _)
  unfold isZero magnitude
  rw [beq_iff_eq, Nat.mul_eq_zero, or_iff_left hpower]

/-- The bounds of a double leave one form for each number. -/
theorem eq_of_magnitude (hnegative : x.negative = y.negative) (h : x.magnitude = y.magnitude) :
    x = y := by
  wlog hle : x.exp ≤ y.exp generalizing x y
  · exact (this hnegative.symm h.symm (by omega)).symm
  obtain ⟨negative, mant, exp, hmant, hlow, hhigh, hnormal⟩ := x
  obtain ⟨negative', mant', exp', hmant', hlow', hhigh', hnormal'⟩ := y
  dsimp only at hnegative hle
  obtain ⟨more, hmore⟩ := Int.le.dest hle
  have hshift : (exp' + 1074).toNat = more + (exp + 1074).toNat := by omega
  unfold magnitude at h
  dsimp only at h
  rw [hshift, power_add, ← Nat.mul_assoc] at h
  have hmants : mant = mant' * power 2 more :=
    Nat.eq_of_mul_eq_mul_right (power_pos (by decide) _) h
  cases more with
  | zero =>
    obtain rfl : mant = mant' := hmants.trans (Nat.mul_one mant')
    obtain rfl : exp = exp' := by omega
    subst hnegative
    rfl
  | succ more =>
    have hfull : power 2 52 ≤ mant' := hnormal'.resolve_left (by omega)
    have htwo : power 2 1 ≤ power 2 (more + 1) := power_le (by decide) (by omega)
    have hlarge : power 2 53 ≤ mant := by
      calc power 2 53 = power 2 52 * power 2 1 := power_add 2 52 1
        _ ≤ mant' * power 2 (more + 1) := Nat.mul_le_mul hfull htwo
        _ = mant := hmants.symm
    exact absurd hmant (Nat.not_lt.mpr hlarge)

theorem natAbs_units (x : Double) : x.units.natAbs = x.magnitude := by
  unfold units
  split <;> omega

/-- Doubles are equal if their values are. -/
theorem beq_iff (x y : Double) : x.beq y = true ↔ x.units = y.units := by
  unfold beq
  rw [Bool.or_eq_true, beq_iff_eq, Bool.and_eq_true, isZero_iff, isZero_iff]
  constructor
  · rintro (rfl | ⟨hx, hy⟩)
    · rfl
    · unfold units
      rw [hx, hy]
      split <;> split <;> rfl
  · intro h
    have hmagnitude : x.magnitude = y.magnitude := by
      rw [← natAbs_units, h, natAbs_units]
    by_cases hzero : x.magnitude = 0
    · exact .inr ⟨hzero, hmagnitude ▸ hzero⟩
    · refine .inl (eq_of_magnitude ?_ hmagnitude)
      unfold units at h
      cases hx : x.negative <;> cases hy : y.negative <;> simp only [hx, hy] at h <;>
        first | rfl | (simp at h; omega)

end

section

variable {negative : Bool} {a b den mant shift : Nat} {v w : Double}

/-- Of two numbers the larger one has no smaller nearest double. -/
theorem IsNearest.mono (h : v.IsNearest a den) (h' : w.IsNearest b den) (hden : 0 < den)
    (hlt : a < b) : v.magnitude ≤ w.magnitude := by
  by_contra hgt
  have hmore : w.magnitude * den + den ≤ v.magnitude * den := by
    rw [← Nat.succ_mul]
    exact Nat.mul_le_mul_right den (by omega)
  have hv := h w
  have hw := h' v
  unfold Nat.dist at hv hw
  omega

/-- A number of fifty-three binary digits, shifted, is a double itself. -/
theorem magnitude_ofUnits?_shifted (hmant : mant < power 2 53)
    (h : ofUnits? negative (mant * power 2 shift) 1 = some w) :
    w.magnitude = mant * power 2 shift := by
  obtain ⟨-, hmagnitude⟩ := ofUnits?_eq_some h
  have hscaled := @scaled_log2 (mant * power 2 shift) 1 Nat.one_pos
  generalize Nat.log2 (mant * power 2 shift / 1) - 52 = scale at *
  have hle : scale ≤ shift := by
    by_contra hgt
    have hlower : power 2 52 * (1 * power 2 scale) ≤ mant * power 2 shift :=
      hscaled.lower.resolve_left (by omega)
    have hbound : mant * power 2 shift < power 2 52 * (1 * power 2 scale) := by
      calc mant * power 2 shift < power 2 53 * power 2 shift :=
            Nat.mul_lt_mul_of_pos_right hmant (power_pos (by decide) shift)
        _ = power 2 (53 + shift) := (power_add 2 53 shift).symm
        _ ≤ power 2 (52 + scale) := power_le (by decide) (by omega)
        _ = power 2 52 * (1 * power 2 scale) := by rw [power_add, Nat.one_mul]
    exact Nat.not_lt.mpr hlower hbound
  obtain ⟨more, rfl⟩ := Nat.exists_eq_add_of_le hle
  have hsplit : mant * power 2 (scale + more) = mant * power 2 more * (1 * power 2 scale) := by
    rw [power_add, Nat.one_mul, Nat.mul_assoc, Nat.mul_comm (power 2 more)]
  have hgrid : 0 < 1 * power 2 scale := Nat.mul_pos Nat.one_pos (power_pos (by decide) scale)
  have hround := @rounds_roundHalfEven (mant * power 2 (scale + more)) _ hgrid
  have hexact : roundHalfEven (mant * power 2 (scale + more)) (1 * power 2 scale) =
      mant * power 2 more :=
    Nat.le_antisymm (hround.le hgrid (Nat.le_of_eq hsplit))
      (hround.ge hgrid (Nat.le_of_eq hsplit.symm))
  rw [hmagnitude, hexact, hsplit, Nat.one_mul]

end

section

variable {x y : Double}

theorem exists_add? (h : x.magnitude + y.magnitude ≤ (largest false).magnitude) :
    ∃ w, x.add? y = some w := by
  have hx := natAbs_units x
  have hy := natAbs_units y
  unfold add?
  exact exists_ofUnits? Nat.one_pos (by omega) _

theorem exists_sub? (h : x.magnitude + y.magnitude ≤ (largest false).magnitude) :
    ∃ w, x.sub? y = some w := exists_add? (y := y.neg) h

theorem exists_mul? (h : x.magnitude * y.magnitude ≤ (largest false).magnitude * unitsPerOne) :
    ∃ w, x.mul? y = some w := exists_ofUnits? unitsPerOne_pos h _

theorem exists_div? (hy : 0 < y.magnitude)
    (h : x.magnitude * unitsPerOne ≤ (largest false).magnitude * y.magnitude) :
    ∃ w, x.div? y = some w := by
  have hzero : ¬ y.isZero = true := fun hzero => Nat.ne_of_gt hy ((isZero_iff y).mp hzero)
  unfold div?
  rw [if_neg hzero]
  exact exists_ofUnits? hy h _

theorem exists_rem? (hy : 0 < y.magnitude) : ∃ w, x.rem? y = some w := by
  have hzero : ¬ y.isZero = true := fun hzero => Nat.ne_of_gt hy ((isZero_iff y).mp hzero)
  have hle : x.magnitude % y.magnitude ≤ (largest false).magnitude * 1 := by
    rw [Nat.mul_one]
    exact (Nat.mod_le _ _).trans (magnitude_le x false)
  unfold rem?
  rw [if_neg hzero]
  exact exists_ofUnits? Nat.one_pos hle _

end

section

variable {i j : Int}

theorem units_le_largest {n : Nat} (h : n ≤ power 2 1023) :
    n * unitsPerOne ≤ (largest false).magnitude := by
  have hmant : power 2 52 ≤ power 2 53 - 1 := by decide
  calc n * unitsPerOne ≤ power 2 1023 * unitsPerOne := Nat.mul_le_mul_right unitsPerOne h
    _ = power 2 52 * power 2 2045 := by rw [← power_units, ← power_add]
    _ ≤ (largest false).magnitude := by
      rw [magnitude_largest]
      exact Nat.mul_le_mul_right _ hmant

/-- An integer in the range of doubles stands for the double that is nearest to it. -/
theorem ofUnits?_ofInt (h : i.natAbs ≤ power 2 1023) :
    ofUnits? (decide (i < 0)) (i.natAbs * unitsPerOne) 1 = some (ofInt i) := by
  have hrange : i.natAbs * unitsPerOne ≤ (largest false).magnitude * 1 := by
    rw [Nat.mul_one]
    exact units_le_largest h
  obtain ⟨w, hw⟩ := exists_ofUnits? Nat.one_pos hrange (decide (i < 0))
  unfold ofInt
  rw [hw]
  rfl

theorem negative_ofInt (h : i.natAbs ≤ power 2 1023) : (ofInt i).negative = decide (i < 0) :=
  (isNearest_ofUnits? Nat.one_pos (ofUnits?_ofInt h)).1

theorem isNearest_ofInt (h : i.natAbs ≤ power 2 1023) :
    (ofInt i).IsNearest (i.natAbs * unitsPerOne) 1 :=
  (isNearest_ofUnits? Nat.one_pos (ofUnits?_ofInt h)).2

/-- The double of an integer of fifty-three binary digits, shifted, is the integer itself. -/
theorem magnitude_ofInt_shifted {mant shift : Nat} (hmant : mant < power 2 53)
    (hi : i.natAbs = mant * power 2 shift) (h : i.natAbs ≤ power 2 1023) :
    (ofInt i).magnitude = i.natAbs * unitsPerOne := by
  have hunits : i.natAbs * unitsPerOne = mant * power 2 (shift + 1074) := by
    rw [hi, power_units, Nat.mul_assoc]
  have hdouble := ofUnits?_ofInt h
  rw [hunits] at hdouble
  rw [magnitude_ofUnits?_shifted hmant hdouble, hunits]

theorem magnitude_ofInt (h : i.natAbs ≤ power 2 53) :
    (ofInt i).magnitude = i.natAbs * unitsPerOne := by
  have hrange : i.natAbs ≤ power 2 1023 := h.trans (power_le (by decide) (by decide))
  rcases Nat.lt_or_eq_of_le h with hlt | heq
  · have hone : i.natAbs = i.natAbs * power 2 0 := (Nat.mul_one i.natAbs).symm
    exact magnitude_ofInt_shifted hlt hone hrange
  · have hone : i.natAbs = 1 * power 2 53 := heq.trans (Nat.one_mul _).symm
    exact magnitude_ofInt_shifted (by decide) hone hrange

theorem magnitude_ofInt_le (hi : i.natAbs ≤ power 2 1023) (hj : j.natAbs ≤ power 2 1023)
    (h : i.natAbs ≤ j.natAbs) : (ofInt i).magnitude ≤ (ofInt j).magnitude := by
  rcases Nat.lt_or_eq_of_le h with hlt | heq
  · exact (isNearest_ofInt hi).mono (isNearest_ofInt hj) Nat.one_pos
      (Nat.mul_lt_mul_of_pos_right hlt unitsPerOne_pos)
  · have hdouble := (ofUnits?_eq_some (ofUnits?_ofInt hi)).2
    rw [heq] at hdouble
    exact Nat.le_of_eq (hdouble.trans (ofUnits?_eq_some (ofUnits?_ofInt hj)).2.symm)

/-- The order of integers is the order of their doubles, but for integers that share one. -/
theorem units_ofInt_mono (hi : i.natAbs ≤ power 2 1023) (hj : j.natAbs ≤ power 2 1023)
    (h : i ≤ j) : (ofInt i).units ≤ (ofInt j).units := by
  unfold units
  rw [negative_ofInt hi, negative_ofInt hj]
  by_cases hnegative : i < 0
  · rw [if_pos (decide_eq_true hnegative)]
    by_cases hnegative' : j < 0
    · have hle := magnitude_ofInt_le hj hi (by omega)
      rw [if_pos (decide_eq_true hnegative')]
      omega
    · rw [decide_eq_false hnegative', if_neg Bool.false_ne_true]
      omega
  · have hle := magnitude_ofInt_le hi hj (by omega)
    rw [decide_eq_false hnegative, if_neg Bool.false_ne_true, decide_eq_false (by omega),
      if_neg Bool.false_ne_true]
    omega

theorem unitsPerOne_le_magnitude (hi : i.natAbs ≤ power 2 1023) (hne : i ≠ 0) :
    unitsPerOne ≤ (ofInt i).magnitude := by
  have hone : (1 : Int).natAbs ≤ power 2 53 := by decide
  have hrange : (1 : Int).natAbs ≤ power 2 1023 := hone.trans (power_le (by decide) (by decide))
  have hle := magnitude_ofInt_le hrange hi (by omega)
  rwa [magnitude_ofInt hone, Int.natAbs_one, Nat.one_mul] at hle

/-- Integers whose doubles have one value have one double, as none has a negative zero. -/
theorem ofInt_eq_of_units (hi : i.natAbs ≤ power 2 1023) (hj : j.natAbs ≤ power 2 1023)
    (h : (ofInt i).units = (ofInt j).units) : ofInt i = ofInt j := by
  have hsame := (beq_iff (ofInt i) (ofInt j)).mpr h
  unfold beq at hsame
  rw [Bool.or_eq_true, beq_iff_eq, Bool.and_eq_true, isZero_iff, isZero_iff] at hsame
  refine hsame.elim id fun ⟨hzero, hzero'⟩ => ?_
  have hunits := unitsPerOne_pos
  have hi0 : i = 0 := by
    by_contra hne
    have hle := unitsPerOne_le_magnitude hi hne
    omega
  have hj0 : j = 0 := by
    by_contra hne
    have hle := unitsPerOne_le_magnitude hj hne
    omega
  rw [hi0, hj0]

theorem isIntegral_ofInt (h : i.natAbs ≤ power 2 53) : (ofInt i).isIntegral = true := by
  unfold isIntegral
  rw [magnitude_ofInt h, Nat.mul_mod_left]
  rfl

theorem truncate_eq (x : Double) :
    x.truncate = if x.negative then -((x.magnitude / unitsPerOne : Nat) : Int)
      else ((x.magnitude / unitsPerOne : Nat) : Int) := rfl

theorem natAbs_truncate (x : Double) : x.truncate.natAbs = x.magnitude / unitsPerOne := by
  rw [truncate_eq]
  generalize x.magnitude / unitsPerOne = whole
  split <;> omega

theorem truncate_ofInt (h : i.natAbs ≤ power 2 53) : (ofInt i).truncate = i := by
  rw [truncate_eq, magnitude_ofInt h, Nat.mul_div_cancel _ unitsPerOne_pos,
    negative_ofInt (h.trans (power_le (by decide) (by decide)))]
  by_cases hi : i < 0
  · rw [if_pos (decide_eq_true hi)]
    omega
  · rw [decide_eq_false hi, if_neg Bool.false_ne_true]
    omega

/-- No integer is rounded past another one that is a double itself. -/
theorem le_natAbs_truncate_ofInt (hi : i.natAbs ≤ power 2 53) (hj : j.natAbs ≤ power 2 1023)
    (h : i.natAbs ≤ j.natAbs) : i.natAbs ≤ (ofInt j).truncate.natAbs := by
  have hle := magnitude_ofInt_le (hi.trans (power_le (by decide) (by decide))) hj h
  rw [magnitude_ofInt hi] at hle
  rw [natAbs_truncate]
  exact (Nat.le_div_iff_mul_le unitsPerOne_pos).mpr hle

end

end ClauseTemplates.Double
