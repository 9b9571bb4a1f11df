import ClauseTemplates.Expression.Evaluation
import ClauseTemplates.Proofs.Effects
import ClauseTemplates.Proofs.Number.Whole

namespace ClauseTemplates

open Double

theorem Json.int64?_int {i : Int} (h : Json.inInt64 i = true) : (Json.int i).int64? = some i :=
  if_pos h

namespace Double

variable {i j : Int}

theorem natAbs_le_of_inInt64 (h : Json.inInt64 i = true) : i.natAbs ≤ power 2 63 := by
  have hbounds := of_decide_eq_true h
  omega

theorem range_of_inInt64 (h : Json.inInt64 i = true) : i.natAbs ≤ power 2 1023 :=
  (natAbs_le_of_inInt64 h).trans (power_le (by decide) (by decide))

theorem magnitude_le_of_inInt64 (h : Json.inInt64 i = true) :
    (ofInt i).magnitude ≤ power 2 63 * unitsPerOne := by
  have hpower : (-(power 2 63 : Nat) : Int).natAbs = power 2 63 := by
    rw [Int.natAbs_neg, Int.natAbs_natCast]
  have hrange : (-(power 2 63 : Nat) : Int).natAbs ≤ power 2 1023 := by
    rw [hpower]
    exact power_le (by decide) (by decide)
  have hle : (ofInt i).magnitude ≤ (ofInt (-(power 2 63 : Nat))).magnitude := by
    refine magnitude_ofInt_le (range_of_inInt64 h) hrange ?_
    rw [hpower]
    exact natAbs_le_of_inInt64 h
  have hone : (-(power 2 63 : Nat) : Int).natAbs = 1 * power 2 63 :=
    hpower.trans (Nat.one_mul _).symm
  rwa [magnitude_ofInt_shifted (by decide) hone hrange, hpower] at hle

end Double

namespace Evaluation

/-- An exact integer where there is one, and a double in its place everywhere else. -/
structure ExactWhere (fits : Prop) (exact : Int) (result : Result Json) : Prop where
  integer : fits → result = .ok (.int exact)
  double : ¬ fits → ∃ x, result = .ok (.double x)

theorem ExactWhere.ne_error {fits : Prop} {exact : Int} {result : Result Json}
    (h : ExactWhere fits exact result) (e : EvalError) : result ≠ .error e := by
  rintro rfl
  by_cases hfits : fits
  · cases h.integer hfits
  · obtain ⟨x, hx⟩ := h.double hfits
    cases hx

section

variable {op : BinaryOp} {x y : Int}

theorem arithmetic_int (hx : Json.inInt64 x = true) (hy : Json.inInt64 y = true) :
    arithmetic op (.int x) (.int y) =
      if (op = .div ∨ op = .rem) ∧ y = 0 then .error .divisionByZero
      else match exactResult? op x y with
        | some k => .ok (.int k)
        | none => onDoubles op (ofInt x) (ofInt y) := by
  unfold arithmetic
  rw [Json.int64?_int hx, Json.int64?_int hy]
  rfl

/-- The exact result of an operation is given where there is one, and else that on doubles. -/
theorem exactWhere_arithmetic {fits : Prop} [Decidable fits] {exact : Int}
    (hx : Json.inInt64 x = true) (hy : Json.inInt64 y = true)
    (hzero : ¬ ((op = .div ∨ op = .rem) ∧ y = 0))
    (hexact : exactResult? op x y = if fits then some exact else none)
    (hdouble : ∃ w, onDoubles op (ofInt x) (ofInt y) = .ok (.double w)) :
    ExactWhere fits exact (arithmetic op (.int x) (.int y)) := by
  rw [arithmetic_int hx hy, if_neg hzero, hexact]
  refine ⟨fun h => ?_, fun h => ?_⟩
  · rw [if_pos h]
  · rw [if_neg h]
    exact hdouble

theorem sum_le_largest (hx : Json.inInt64 x = true) (hy : Json.inInt64 y = true) :
    (ofInt x).magnitude + (ofInt y).magnitude ≤ (largest false).magnitude := by
  have hx := magnitude_le_of_inInt64 hx
  have hy := magnitude_le_of_inInt64 hy
  have hlargest : (power 2 63 + power 2 63) * unitsPerOne ≤ (largest false).magnitude := by
    have hdouble : power 2 63 + power 2 63 = power 2 64 := rfl
    rw [hdouble]
    exact units_le_largest (power_le (by decide) (by decide))
  calc (ofInt x).magnitude + (ofInt y).magnitude
      ≤ power 2 63 * unitsPerOne + power 2 63 * unitsPerOne := Nat.add_le_add hx hy
    _ = (power 2 63 + power 2 63) * unitsPerOne := (Nat.add_mul _ _ _).symm
    _ ≤ (largest false).magnitude := hlargest

theorem product_le_largest (hx : Json.inInt64 x = true) (hy : Json.inInt64 y = true) :
    (ofInt x).magnitude * (ofInt y).magnitude ≤ (largest false).magnitude * unitsPerOne := by
  have hx := magnitude_le_of_inInt64 hx
  have hy := magnitude_le_of_inInt64 hy
  have hlargest : power 2 63 * power 2 63 * unitsPerOne ≤ (largest false).magnitude := by
    rw [← power_add]
    exact units_le_largest (power_le (by decide) (by decide))
  calc (ofInt x).magnitude * (ofInt y).magnitude
      ≤ power 2 63 * unitsPerOne * (power 2 63 * unitsPerOne) := Nat.mul_le_mul hx hy
    _ = power 2 63 * power 2 63 * unitsPerOne * unitsPerOne := by
      rw [Nat.mul_assoc, Nat.mul_left_comm unitsPerOne, ← Nat.mul_assoc, ← Nat.mul_assoc]
    _ ≤ (largest false).magnitude * unitsPerOne := Nat.mul_le_mul_right unitsPerOne hlargest

theorem magnitude_pos (hy : Json.inInt64 y = true) (hne : y ≠ 0) : 0 < (ofInt y).magnitude :=
  unitsPerOne_pos.trans_le (unitsPerOne_le_magnitude (range_of_inInt64 hy) hne)

theorem quotient_le_largest (x : Int) (hy : Json.inInt64 y = true) (hne : y ≠ 0) :
    (ofInt x).magnitude * unitsPerOne ≤ (largest false).magnitude * (ofInt y).magnitude :=
  Nat.mul_le_mul (magnitude_le (ofInt x) false) (unitsPerOne_le_magnitude (range_of_inInt64 hy) hne)

theorem inInt64_tdiv (hx : Json.inInt64 x = true) (hne : y ≠ 0) :
    Json.inInt64 (x.tdiv y) = true ↔ ¬ (x = -power 2 63 ∧ y = -1) := by
  have hbounds := of_decide_eq_true hx
  have habs : (x.tdiv y).natAbs = x.natAbs / y.natAbs := Int.natAbs_tdiv x y
  unfold Json.inInt64
  rw [decide_eq_true_iff]
  by_cases hone : y.natAbs = 1
  · rcases Int.natAbs_eq y with hy | hy
    · rw [hone] at hy
      subst hy
      rw [Nat.cast_one, Int.tdiv_one]
      omega
    · rw [hone] at hy
      subst hy
      rw [Nat.cast_one, Int.tdiv_neg, Int.tdiv_one]
      omega
  · have hhalf : x.natAbs / y.natAbs ≤ x.natAbs / 2 := Nat.div_le_div_left (by omega) (by decide)
    have hpower := @power_pos 2 (by decide) 63
    omega

theorem inInt64_tmod (x : Int) (hy : Json.inInt64 y = true) (hne : y ≠ 0) :
    Json.inInt64 (x.tmod y) = true := by
  have hlt : x.natAbs % y.natAbs < y.natAbs := Nat.mod_lt _ (by omega)
  rw [← Int.natAbs_tmod] at hlt
  have hbounds := of_decide_eq_true hy
  apply decide_eq_true
  omega

theorem exactResult?_div (x y : Int) : exactResult? .div x y =
    if y ∣ x ∧ Json.inInt64 (x / y) = true then some (x / y) else none := by
  unfold exactResult? inRange?
  dsimp only
  by_cases h : y ∣ x
  · rw [if_pos (Int.dvd_iff_tmod_eq_zero.mp h), Int.tdiv_eq_ediv_of_dvd h]
    simp [h]
  · rw [if_neg fun hzero => h (Int.dvd_iff_tmod_eq_zero.mpr hzero), if_neg fun hboth => h hboth.1]

theorem exactResult?_rem (hx : Json.inInt64 x = true) (hy : Json.inInt64 y = true) (hne : y ≠ 0) :
    exactResult? .rem x y =
      if ¬ (x = -power 2 63 ∧ y = -1) then some (x.tmod y) else none := by
  have hrange : inRange? (x.tmod y) = some (x.tmod y) := if_pos (inInt64_tmod x hy hne)
  unfold exactResult?
  dsimp only
  rw [hrange]
  exact if_congr (inInt64_tdiv hx hne) rfl rfl

theorem exactWhere_add (hx : Json.inInt64 x = true) (hy : Json.inInt64 y = true) :
    ExactWhere (Json.inInt64 (x + y) = true) (x + y) (arithmetic .add (.int x) (.int y)) := by
  obtain ⟨sum, hsum⟩ := exists_add? (sum_le_largest hx hy)
  refine exactWhere_arithmetic hx hy (by simp) rfl ⟨sum, ?_⟩
  rw [onDoubles, hsum]
  rfl

theorem exactWhere_sub (hx : Json.inInt64 x = true) (hy : Json.inInt64 y = true) :
    ExactWhere (Json.inInt64 (x - y) = true) (x - y) (arithmetic .sub (.int x) (.int y)) := by
  obtain ⟨difference, hdifference⟩ := exists_sub? (sum_le_largest hx hy)
  refine exactWhere_arithmetic hx hy (by simp) rfl ⟨difference, ?_⟩
  rw [onDoubles, hdifference]
  rfl

theorem exactWhere_mul (hx : Json.inInt64 x = true) (hy : Json.inInt64 y = true) :
    ExactWhere (Json.inInt64 (x * y) = true) (x * y) (arithmetic .mul (.int x) (.int y)) := by
  obtain ⟨product, hproduct⟩ := exists_mul? (product_le_largest hx hy)
  refine exactWhere_arithmetic hx hy (by simp) rfl ⟨product, ?_⟩
  rw [onDoubles, hproduct]
  rfl

theorem exactWhere_div (hx : Json.inInt64 x = true) (hy : Json.inInt64 y = true) (hne : y ≠ 0) :
    ExactWhere (y ∣ x ∧ Json.inInt64 (x / y) = true) (x / y)
      (arithmetic .div (.int x) (.int y)) := by
  obtain ⟨quotient, hquotient⟩ := exists_div? (magnitude_pos hy hne) (quotient_le_largest x hy hne)
  refine exactWhere_arithmetic hx hy (fun h => hne h.2) (exactResult?_div x y) ⟨quotient, ?_⟩
  have hzero : ¬ (ofInt y).isZero = true :=
    fun h => Nat.ne_of_gt (magnitude_pos hy hne) ((isZero_iff _).mp h)
  rw [onDoubles, if_neg hzero, hquotient]
  rfl

theorem exactWhere_rem (hx : Json.inInt64 x = true) (hy : Json.inInt64 y = true) (hne : y ≠ 0) :
    ExactWhere (¬ (x = -power 2 63 ∧ y = -1)) (x.tmod y) (arithmetic .rem (.int x) (.int y)) := by
  obtain ⟨remainder, hremainder⟩ := @exists_rem? (ofInt x) (ofInt y) (magnitude_pos hy hne)
  refine exactWhere_arithmetic hx hy (fun h => hne h.2) (exactResult?_rem hx hy hne) ⟨remainder, ?_⟩
  have hzero : ¬ (ofInt y).isZero = true :=
    fun h => Nat.ne_of_gt (magnitude_pos hy hne) ((isZero_iff _).mp h)
  rw [onDoubles, if_neg hzero, hremainder]
  rfl

/-- Only a zero divisor is refused. -/
theorem arithmetic_eq_divisionByZero (hx : Json.inInt64 x = true) (hy : Json.inInt64 y = true)
    (hop : op = .div ∨ op = .rem) :
    arithmetic op (.int x) (.int y) = .error .divisionByZero ↔ y = 0 := by
  constructor
  · intro h
    by_contra hne
    rcases hop with rfl | rfl
    · exact (exactWhere_div hx hy hne).ne_error _ h
    · exact (exactWhere_rem hx hy hne).ne_error _ h
  · intro h
    rw [arithmetic_int hx hy, if_pos ⟨hop, h⟩]

theorem exactWhere_negate (hx : Json.inInt64 x = true) :
    ExactWhere (x ≠ -power 2 63) (-x) (negate (.int x)) := by
  have hbounds := of_decide_eq_true hx
  have hrange : Json.inInt64 (-x) = true ↔ x ≠ -power 2 63 := by
    unfold Json.inInt64
    rw [decide_eq_true_iff]
    omega
  have hnegate : negate (.int x) = match inRange? (-x) with
      | some i => .ok (.int i)
      | none => .ok (.double (ofInt x).neg) := by
    unfold negate
    rw [Json.int64?_int hx]
    rfl
  rw [hnegate]
  refine ⟨fun h => ?_, fun h => ⟨(ofInt x).neg, ?_⟩⟩
  · rw [inRange?, if_pos (hrange.mpr h)]
  · rw [inRange?, if_neg fun hfits => h (hrange.mp hfits)]

end

end Evaluation

namespace Expression

open Evaluation

section

variable {scope : Scope} {lhs rhs : Expression} {x y : Int} {op : BinaryOp} {a b : Json}

theorem evaluate_binary (hlhs : lhs.evaluate scope = .ok a) (hrhs : rhs.evaluate scope = .ok b)
    (hand : op ≠ .and) (hor : op ≠ .or) :
    (binary op lhs rhs).evaluate scope = Evaluation.binary op a b := by
  rw [evaluate, hlhs]
  change (if op = .and ∧ _ then _ else if op = .or ∧ _ then _ else _) = _
  rw [if_neg fun h => hand h.1, if_neg fun h => hor h.1, hrhs]
  change (if op = .and ∨ op = .or then _ else _) = _
  rw [if_neg (by simp [hand, hor])]

theorem evaluate_call {function : String} {arguments : List Expression} {values : List Json}
    (h : evaluateAll scope arguments = .ok values) :
    (call function arguments).evaluate scope = Evaluation.call function values := by
  rw [evaluate, h]
  rfl

/-- Arithmetic on integers of 64 bits gives the exact result wherever it is such an integer again,
and else a double. Only a zero divisor is refused. -/
theorem evaluate_arithmetic (hlhs : lhs.evaluate scope = .ok (.int x))
    (hrhs : rhs.evaluate scope = .ok (.int y)) (hx : Json.inInt64 x = true)
    (hy : Json.inInt64 y = true) :
    ExactWhere (Json.inInt64 (x + y) = true) (x + y) ((binary .add lhs rhs).evaluate scope) ∧
    ExactWhere (Json.inInt64 (x - y) = true) (x - y) ((binary .sub lhs rhs).evaluate scope) ∧
    ExactWhere (Json.inInt64 (x * y) = true) (x * y) ((binary .mul lhs rhs).evaluate scope) ∧
    ((binary .div lhs rhs).evaluate scope = .error .divisionByZero ↔ y = 0) ∧
    (y ≠ 0 → ExactWhere (y ∣ x ∧ Json.inInt64 (x / y) = true) (x / y)
      ((binary .div lhs rhs).evaluate scope)) ∧
    ((binary .rem lhs rhs).evaluate scope = .error .divisionByZero ↔ y = 0) ∧
    (y ≠ 0 → ExactWhere (¬ (x = -power 2 63 ∧ y = -1)) (x.tmod y)
      ((binary .rem lhs rhs).evaluate scope)) ∧
    ExactWhere (x ≠ -power 2 63) (-x) ((neg lhs).evaluate scope) := by
  have hbinary : ∀ op, op ≠ .and → op ≠ .or →
      (binary op lhs rhs).evaluate scope = Evaluation.binary op (.int x) (.int y) :=
    fun op => evaluate_binary hlhs hrhs
  refine ⟨?_, ?_, ?_, ?_, ?_, ?_, ?_, ?_⟩
  · rw [hbinary .add nofun nofun]
    exact exactWhere_add hx hy
  · rw [hbinary .sub nofun nofun]
    exact exactWhere_sub hx hy
  · rw [hbinary .mul nofun nofun]
    exact exactWhere_mul hx hy
  · rw [hbinary .div nofun nofun]
    exact arithmetic_eq_divisionByZero hx hy (.inl rfl)
  · rw [hbinary .div nofun nofun]
    exact exactWhere_div hx hy
  · rw [hbinary .rem nofun nofun]
    exact arithmetic_eq_divisionByZero hx hy (.inr rfl)
  · rw [hbinary .rem nofun nofun]
    exact exactWhere_rem hx hy
  · rw [evaluate, hlhs]
    exact exactWhere_negate hx

end

namespace Balances

def scope : Scope := .ofData (.obj [("balance", .int (-power 2 63)), ("sign", .int (-1))]) ⟨0, 0, 0⟩

def balance : Expression := .ident "balance"

def sign : Expression := .ident "sign"

/-- The balance furthest below zero has no opposite of 64 bits. -/
theorem evaluate_arithmetic_balances :
    balance.evaluate scope = .ok (.int (-power 2 63)) ∧ sign.evaluate scope = .ok (.int (-1)) ∧
      Json.inInt64 (-power 2 63) = true ∧ Json.inInt64 (-1) = true ∧
      (binary .sub balance sign).evaluate scope = .ok (.int (1 - power 2 63)) ∧
      (∃ x, (binary .add balance sign).evaluate scope = .ok (.double x)) ∧
      (∃ x, (binary .div balance sign).evaluate scope = .ok (.double x)) ∧
      (∃ x, (binary .rem balance sign).evaluate scope = .ok (.double x)) ∧
      ∃ x, (neg balance).evaluate scope = .ok (.double x) := by
  have hbalance : balance.evaluate scope = .ok (.int (-power 2 63)) := rfl
  have hsign : sign.evaluate scope = .ok (.int (-1)) := rfl
  have hx : Json.inInt64 (-power 2 63) = true := by decide
  have hy : Json.inInt64 (-1) = true := by decide
  obtain ⟨hadd, hsub, -, -, hdiv, -, hrem, hneg⟩ := evaluate_arithmetic hbalance hsign hx hy
  refine ⟨hbalance, hsign, hx, hy, hsub.integer (by decide), hadd.double (by decide),
    (hdiv (by decide)).double (by decide), (hrem (by decide)).double (by decide), hneg.double ?_⟩
  exact fun h => h rfl

end Balances

end Expression

end ClauseTemplates
