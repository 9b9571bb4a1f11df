import ClauseTemplates.Number.Power

namespace ClauseTemplates

/-- A finite binary64 number: `mant * 2 ^ exp`, negated if `negative`. The bounds leave one form
for each number, so two doubles of one sign and one value are the same. -/
structure Double where
  negative : Bool
  mant : Nat
  exp : Int
  mant_lt : mant < power 2 53
  exp_ge : -1074 ≤ exp
  exp_le : exp ≤ 971
  normal : exp = -1074 ∨ power 2 52 ≤ mant
  deriving DecidableEq

namespace Double

/-- How many of the smallest positive doubles make one. -/
def unitsPerOne : Nat := power 2 1074

/-- The nearest integer to `num / den`, a half going to the even neighbour. -/
def roundHalfEven (num den : Nat) : Nat :=
  let quotient := num / den
  let remainder := num % den
  if 2 * remainder < den then quotient
  else if den < 2 * remainder then quotient + 1
  else quotient + quotient % 2

/-- The double `mant * 2 ^ shift` smallest positive doubles from zero, if there is one with this
mantissa. -/
def ofParts? (negative : Bool) (mant shift : Nat) : Option Double :=
  if h : mant < power 2 53 ∧ shift ≤ 2045 ∧ (shift = 0 ∨ power 2 52 ≤ mant) then
    some ⟨negative, mant, (shift : Int) - 1074, h.1, by omega, by omega, by omega⟩
  else none

/-- The double nearest to `num / den` times the smallest positive double, a tie going to the even
mantissa; nothing past the largest double. -/
def ofUnits? (negative : Bool) (num den : Nat) : Option Double :=
  let shift := Nat.log2 (num / den) - 52
  let mant := roundHalfEven num (den * power 2 shift)
  if mant = power 2 53 then ofParts? negative (power 2 52) (shift + 1) else ofParts? negative mant shift

def zero : Double := ⟨false, 0, -1074, by decide, by decide, by decide, by decide⟩

def largest (negative : Bool) : Double :=
  ⟨negative, power 2 53 - 1, 971, by decide, by decide, by decide, by decide⟩

instance : Inhabited Double := ⟨zero⟩

/-- The distance from zero in smallest positive doubles. -/
def magnitude (x : Double) : Nat := x.mant * power 2 (x.exp + 1074).toNat

/-- The exact value in smallest positive doubles. -/
def units (x : Double) : Int := if x.negative then -(x.magnitude : Int) else x.magnitude

def neg (x : Double) : Double := { x with negative := !x.negative }

def abs (x : Double) : Double := { x with negative := false }

def isZero (x : Double) : Bool := x.mant == 0

/-- Zeros of both signs are equal. -/
def beq (x y : Double) : Bool := x == y || (x.isZero && y.isZero)

def compare (x y : Double) : Ordering := Ord.compare x.units y.units

/-- Integers past the range go to the largest double of their sign. -/
def ofInt (i : Int) : Double :=
  (ofUnits? (decide (i < 0)) (i.natAbs * unitsPerOne) 1).getD (largest (decide (i < 0)))

/-- The nearest double to the exact sum. A sum of zero is negative only if both terms are. -/
def add? (x y : Double) : Option Double :=
  let sum := x.units + y.units
  let negative := if sum = 0 then x.negative && y.negative else decide (sum < 0)
  ofUnits? negative sum.natAbs 1

def sub? (x y : Double) : Option Double := x.add? y.neg

def mul? (x y : Double) : Option Double :=
  ofUnits? (x.negative != y.negative) (x.magnitude * y.magnitude) unitsPerOne

/-- The nearest double to the exact quotient; nothing for a zero divisor. -/
def div? (x y : Double) : Option Double :=
  if y.isZero then none
  else ofUnits? (x.negative != y.negative) (x.magnitude * unitsPerOne) y.magnitude

/-- The remainder of the division toward zero, with the sign of the dividend. -/
def rem? (x y : Double) : Option Double :=
  if y.isZero then none else ofUnits? x.negative (x.magnitude % y.magnitude) 1

/-- By repeated squaring, rounding every product. -/
def pow? (x : Double) (n : Nat) : Option Double :=
  go n n x (ofInt 1)
where
  go : Nat → Nat → Double → Double → Option Double
    | 0, _, _, result => some result
    | fuel + 1, n, base, result => do
      let result ← if n % 2 = 1 then result.mul? base else some result
      if n / 2 = 0 then some result
      else go fuel (n / 2) (← base.mul? base) result

/-- Toward zero. -/
def truncate (x : Double) : Int :=
  let whole : Int := x.magnitude / unitsPerOne
  if x.negative then -whole else whole

def isIntegral (x : Double) : Bool := x.magnitude % unitsPerOne == 0

def floor (x : Double) : Int := x.units / unitsPerOne

def ceil (x : Double) : Int := -(-x.units / unitsPerOne)

/-- To the nearest integer, a half away from zero. -/
def round (x : Double) : Int :=
  let whole : Int := (2 * x.magnitude + unitsPerOne) / (2 * unitsPerOne)
  if x.negative then -whole else whole

/-- An integer as a double that keeps the sign of `x` when it is zero. -/
def withInteger (x : Double) (whole : Int) : Double :=
  { ofInt whole with negative := x.negative }

end Double

end ClauseTemplates
