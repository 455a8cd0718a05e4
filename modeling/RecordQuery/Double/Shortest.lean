import RecordQuery.Double

/-!
# The shortest decimal that reads back

Among the decimals that round to a given number, those with the fewest digits are found by trying
grids of one, two, … seventeen digits: on a grid only the two neighbours of the number can be
nearest, so the first grid on which a neighbour rounds back has the fewest digits. Of two such
neighbours the nearer is taken, and a tie is settled by the caller's rule.
-/

namespace RecordQuery

/-- The number `digits · 10 ^ exponent`. -/
structure Decimal where
  digits : Nat
  exponent : Int
  deriving DecidableEq, Repr, Inhabited

/-- Which of two equally near decimals is written. -/
inductive Tie where
  | toEven
  | up
  deriving DecidableEq, Repr

namespace Double

/-- How many decimal digits a positive number is written with. -/
def decimalLength (n : Nat) : Nat := (Nat.toDigits 10 n).length

/-- The exponent of the leading decimal digit of the ratio `num / den`. -/
def leadingExponent (num den : Nat) : Int :=
  if den ≤ num then (decimalLength (num / den) : Int) - 1
  else -(decimalLength ((den - 1) / num) : Int)

/-- Compares `a · 10 ^ k` with `b · 2 ^ j`. -/
def compareScaled (a : Nat) (k : Int) (b : Nat) (j : Int) : Ordering :=
  compare (a * Nat.pow 10 k.toNat * Nat.pow 2 (-j).toNat)
    (b * Nat.pow 2 j.toNat * Nat.pow 10 (-k).toNat)

/-- Whether `c · 10 ^ k` rounds to the magnitude of `d`: it lies between the midpoints to the two
neighbouring numbers, a midpoint itself belonging to an even mantissa. Below a power of two the
neighbour is twice as near. -/
def readsBack (d : Double) (c : Nat) (k : Int) : Bool :=
  let gap := if d.mantissa = 2 ^ 52 ∧ leastExponent < d.exponent then 1 else 2
  let even := d.mantissa % 2 = 0
  let fromLow := compareScaled c k (4 * d.mantissa - gap) (d.exponent - 2)
  let fromHigh := compareScaled c k (4 * d.mantissa + 2) (d.exponent - 2)
  (fromLow == .gt || (even && fromLow == .eq)) && (fromHigh == .lt || (even && fromHigh == .eq))

/-- Whether the upper of the grid neighbours `c · 10 ^ k` and `(c + 1) · 10 ^ k` is the one to
write. -/
def prefersUpper (tie : Tie) (d : Double) (c : Nat) (k : Int) : Bool :=
  match compareScaled (2 * c + 1) k d.mantissa (d.exponent + 1) with
  | .lt => true
  | .gt => false
  | .eq => match tie with
    | .up => true
    | .toEven => c % 2 == 1

/-- The nearest grid point of `length` digits that reads back, if there is one. -/
def onGrid (tie : Tie) (d : Double) (length : Nat) : Option Decimal :=
  let (num, den) := d.ratio
  let k := leadingExponent num den - length + 1
  let c := num * Nat.pow 10 (-k).toNat / (den * Nat.pow 10 k.toNat)
  let upper : Decimal := if c + 1 = Nat.pow 10 length then ⟨1, k + length⟩ else ⟨c + 1, k⟩
  match d.readsBack c k, d.readsBack (c + 1) k with
  | true, true => some (if prefersUpper tie d c k then upper else ⟨c, k⟩)
  | true, false => some ⟨c, k⟩
  | false, true => some upper
  | false, false => none

/-- The magnitude with all its digits. -/
def allDigits (d : Double) : Decimal :=
  if 0 ≤ d.exponent then ⟨d.mantissa * Nat.pow 2 d.exponent.toNat, 0⟩
  else ⟨d.mantissa * Nat.pow 5 (-d.exponent).toNat, d.exponent⟩

/-- The shortest decimal that reads back as the magnitude of `d`; seventeen digits suffice. -/
def shortest (tie : Tie) (d : Double) : Decimal :=
  if d.isZero then ⟨0, 0⟩
  else ((List.range 17).findSome? fun n => onGrid tie d (n + 1)).getD d.allDigits

end Double

namespace Decimal

/-- The digits without sign, point or exponent. -/
def chars (d : Decimal) : List Char := Nat.toDigits 10 d.digits

/-- The exponent of the leading digit. -/
def leading (d : Decimal) : Int := d.exponent + d.chars.length - 1

/-- Positional notation: no exponent, and a point only before a fraction. -/
def positional (d : Decimal) : List Char :=
  let digits := d.chars
  if 0 ≤ d.exponent then digits ++ List.replicate d.exponent.toNat '0'
  else
    let whole := digits.length + d.exponent
    if 0 < whole then digits.take whole.toNat ++ '.' :: digits.drop whole.toNat
    else '0' :: '.' :: List.replicate (-whole).toNat '0' ++ digits

/-- Scientific notation with one digit before the point and a signed exponent. -/
def scientific (d : Decimal) : List Char :=
  let mantissa := match d.chars with
    | first :: second :: rest => first :: '.' :: second :: rest
    | short => short
  let exponent := d.leading
  mantissa ++ 'e' :: (if exponent < 0 then '-' else '+') :: Nat.toDigits 10 exponent.natAbs

end Decimal

end RecordQuery
