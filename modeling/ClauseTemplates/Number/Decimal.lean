import ClauseTemplates.Number.Double

namespace ClauseTemplates

/-- The number `digits * 10 ^ exponent`. -/
structure Decimal where
  digits : Nat
  exponent : Int
  deriving DecidableEq

namespace Decimal

/-- The decimal digits of a number, most significant first. -/
def digitChars (n : Nat) : List Char := Nat.toDigits 10 n

/-- The number a digit stands for; other characters count as zero. -/
def digitValue (c : Char) : Nat := if c.isDigit then c.toNat - '0'.toNat else 0

/-- The number written by decimal digits, most significant first. -/
def ofDigitChars (cs : List Char) : Nat := cs.foldl (fun n c => 10 * n + digitValue c) 0

/-- Without the zeros at its end. -/
def stripped (d : Decimal) : Decimal :=
  go d.digits d.digits d.exponent
where
  go : Nat → Nat → Int → Decimal
    | 0, digits, exponent => ⟨digits, exponent⟩
    | fuel + 1, digits, exponent =>
      if digits ≠ 0 ∧ digits % 10 = 0 then go fuel (digits / 10) (exponent + 1)
      else ⟨digits, exponent⟩

/-- The exponent of the first digit. -/
def leading (d : Decimal) : Int := d.exponent + (digitChars d.digits).length - 1

/-- The nearest double, a tie going to the even mantissa. Exponents far outside the range of
doubles are decided from the first digit alone. -/
def toDouble? (negative : Bool) (d : Decimal) : Option Double :=
  if d.digits = 0 ∨ d.leading < -400 then some { Double.zero with negative := negative }
  else if 400 < d.leading then none
  else match d.exponent with
    | .ofNat e => Double.ofUnits? negative (d.digits * power 10 e * Double.unitsPerOne) 1
    | .negSucc e => Double.ofUnits? negative (d.digits * Double.unitsPerOne) (power 10 (e + 1))

end Decimal

namespace Double

/-- Which of two equally near decimals is taken. -/
inductive Tie
  | even
  | up
  deriving DecidableEq

/-- The exponent of the first decimal digit of `num / den`. -/
def leadingExponent (num den : Nat) : Int :=
  let guess : Int := (Decimal.digitChars num).length - (Decimal.digitChars den).length
  let reached := match guess with
    | .ofNat e => decide (den * power 10 e ≤ num)
    | .negSucc e => decide (den ≤ num * power 10 (e + 1))
  if reached then guess else guess - 1

/-- The ends of the reals that round to `x`, in quarters of the smallest positive double, and
whether the ends themselves do. Below a power of two the doubles lie closer together. -/
def roundingRange (x : Double) : Nat × Nat × Bool :=
  let scale := power 2 (x.exp + 1074).toNat
  let center := 4 * x.magnitude
  let below := if x.mant = power 2 52 ∧ -1074 < x.exp then scale else 2 * scale
  (center - below, center + 2 * scale, x.mant % 2 == 0)

/-- The grid of multiples of `10 ^ exponent`, as a factor for grid points and one for doubles in
quarters of the smallest positive double. -/
def gridFactors (exponent : Int) : Nat × Nat :=
  match exponent with
  | .ofNat e => (power 10 e * (4 * unitsPerOne), 1)
  | .negSucc e => (4 * unitsPerOne, power 10 (e + 1))

/-- The multiple of `10 ^ exponent` nearest to `|x|` among those that read back as `x`. -/
def onGrid? (tie : Tie) (x : Double) (exponent : Int) : Option Decimal :=
  let (gridFactor, doubleFactor) := gridFactors exponent
  let (low, high, ends) := x.roundingRange
  let readsBack := fun d : Nat =>
    let point := d * gridFactor
    if ends then decide (low * doubleFactor ≤ point ∧ point ≤ high * doubleFactor)
    else decide (low * doubleFactor < point ∧ point < high * doubleFactor)
  let center := 4 * x.magnitude * doubleFactor
  let down := center / gridFactor
  let up := down + 1
  match readsBack down, readsBack up with
  | false, false => none
  | true, false => some ⟨down, exponent⟩
  | false, true => some ⟨up, exponent⟩
  | true, true =>
    let downDistance := center - down * gridFactor
    let upDistance := up * gridFactor - center
    let goUp :=
      if downDistance = upDistance then
        match tie with
        | .even => down % 2 == 1
        | .up => true
      else decide (upDistance < downDistance)
    some ⟨if goUp then up else down, exponent⟩

/-- The fewest digits that read back as `|x|`, and of those the nearest. Seventeen digits tell any
two doubles apart, so the last grid always has a point. -/
def shortest (tie : Tie) (x : Double) : Decimal :=
  if x.isZero then ⟨0, 0⟩
  else
    let leading := leadingExponent x.magnitude unitsPerOne
    let found := (List.range 17).findSome? fun (n : Nat) => x.onGrid? tie (leading - n)
    found.elim ⟨0, 0⟩ Decimal.stripped

def signText (x : Double) : List Char := if x.negative then ['-'] else []

/-- Positional digits without an exponent, no point after an integer. -/
def positional (d : Decimal) : List Char :=
  let digits := Decimal.digitChars d.digits
  match d.exponent with
  | .ofNat e => if d.digits = 0 then ['0'] else digits ++ List.replicate e '0'
  | .negSucc e =>
    let places := e + 1
    let padded := List.replicate (places + 1 - digits.length) '0' ++ digits
    padded.take (padded.length - places) ++ '.' :: padded.drop (padded.length - places)

/-- One digit before the point, and the exponent after an `e`. -/
def scientific (d : Decimal) : List Char :=
  let exponent := d.leading
  let mantissa := match Decimal.digitChars d.digits with
    | [] => []
    | [first] => [first]
    | first :: rest => first :: '.' :: rest
  let sign := if exponent < 0 then '-' else '+'
  mantissa ++ 'e' :: sign :: Decimal.digitChars exponent.natAbs

/-- Text of a number in JSON: positional with a point for exponents from -5 to 15, scientific
beyond, ties to the even digit. -/
def jsonText (x : Double) : List Char :=
  let d := x.shortest .even
  let body :=
    if d.digits = 0 ∨ (-5 ≤ d.leading ∧ d.leading < 16) then
      positional d ++ if 0 ≤ d.exponent then ['.', '0'] else []
    else scientific d
  x.signText ++ body

/-- Text without an exponent and, for integers, without a point, ties to the larger digit. -/
def plainText (x : Double) : List Char := x.signText ++ positional (x.shortest .up)

/-- `|x|` with a fixed number of places, a half going to the even digit: the digits before and
after the point. -/
def fixedParts (places : Nat) (x : Double) : List Char × List Char :=
  let digits := Decimal.digitChars (roundHalfEven (x.magnitude * power 10 places) unitsPerOne)
  let padded := List.replicate (places + 1 - digits.length) '0' ++ digits
  (padded.take (padded.length - places), padded.drop (padded.length - places))

end Double

end ClauseTemplates
