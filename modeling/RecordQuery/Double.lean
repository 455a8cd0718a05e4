/-!
# Finite double-precision numbers

A number is held as a sign and an exact dyadic magnitude `mantissa · 2 ^ exponent`, so rounding is
stated on ratios of natural numbers and no operation on machine floats is involved. Each magnitude
has one form: the mantissa has 53 bits unless the exponent is the least one.
-/

namespace RecordQuery

-- A power is the one of the core library, also where a theory of monoids brings another.
attribute [default_instance 20000] instPowNat

namespace Double

/-- The least exponent, which zero and the subnormal numbers have. -/
def leastExponent : Int := -1074

/-- The largest exponent of a finite number. -/
def greatestExponent : Int := 971

/-- The form in which a magnitude is held. -/
def IsCanonical (mantissa : Nat) (exponent : Int) : Prop :=
  leastExponent ≤ exponent ∧ exponent ≤ greatestExponent ∧ mantissa < 2 ^ 53 ∧
    (exponent = leastExponent ∨ 2 ^ 52 ≤ mantissa)

instance (mantissa : Nat) (exponent : Int) : Decidable (IsCanonical mantissa exponent) := by
  unfold IsCanonical
  infer_instance

end Double

/-- The number `± mantissa · 2 ^ exponent`. -/
structure Double where
  negative : Bool
  mantissa : Nat
  exponent : Int
  canonical : Double.IsCanonical mantissa exponent
  deriving DecidableEq, Repr

namespace Double

def zero : Double := ⟨false, 0, leastExponent, by decide⟩

instance : Inhabited Double := ⟨zero⟩

def isZero (d : Double) : Bool := d.mantissa == 0

/-- The magnitude `mantissa · 2 ^ exponent`, if it is finite and the mantissa has its 53 bits. -/
def ofParts? (mantissa : Nat) (exponent : Int) : Option Double :=
  if h : IsCanonical mantissa exponent then some ⟨false, mantissa, exponent, h⟩ else none

/-- The quotient rounded to the nearest natural number, a half to the even neighbour. -/
def divNearest (num den : Nat) : Nat :=
  let quotient := num / den
  let twice := 2 * (num % den)
  if twice < den then quotient
  else if den < twice then quotient + 1
  else quotient + quotient % 2

/-- The ratio `num / (den · 2 ^ exponent)` as numerator and denominator. -/
def unscale (num den : Nat) (exponent : Int) : Nat × Nat :=
  (num * Nat.pow 2 (-exponent).toNat, den * Nat.pow 2 exponent.toNat)

/-- The exponent at which the mantissa of `num / den` has 53 bits, or the least one. -/
def exponentOf (num den : Nat) : Int :=
  let below : Int := (num.log2 : Int) - (den.log2 : Int) - 53
  let (scaledNum, scaledDen) := unscale num den below
  max leastExponent (if 2 ^ 53 * scaledDen ≤ scaledNum then below + 1 else below)

/-- The number nearest to `num / den`, or nothing when that is beyond the largest finite one. -/
def ofRatio? (num den : Nat) : Option Double :=
  if num = 0 then some zero
  else
    let exponent := exponentOf num den
    let (scaledNum, scaledDen) := unscale num den exponent
    let mantissa := divNearest scaledNum scaledDen
    if mantissa = 2 ^ 53 then ofParts? (2 ^ 52) (exponent + 1) else ofParts? mantissa exponent

/-- The magnitude as numerator and denominator. -/
def ratio (d : Double) : Nat × Nat :=
  (d.mantissa * Nat.pow 2 d.exponent.toNat, Nat.pow 2 (-d.exponent).toNat)

/-- The number nearest to `10 ^ n`. -/
def tenTo (n : Nat) : Double := (ofRatio? (Nat.pow 10 n) 1).getD zero

/-- Product of two magnitudes. -/
def mul? (a b : Double) : Option Double :=
  ofRatio? (a.ratio.1 * b.ratio.1) (a.ratio.2 * b.ratio.2)

/-- Quotient of two magnitudes; the divisor is not zero. -/
def div? (a b : Double) : Option Double :=
  ofRatio? (a.ratio.1 * b.ratio.2) (a.ratio.2 * b.ratio.1)

/-- The magnitude divided `steps` times by the double nearest to `10 ^ 308`. -/
def shrink? : (steps : Nat) → Double → Option Double
  | 0, d => some d
  | steps + 1, d => if d.isZero then some d else (d.div? (tenTo 308)).bind (shrink? steps)

/-- The magnitude times the double nearest to a power of ten. A power below `10 ^ -308` has no such
double and is reached in steps. -/
def scaleTen? (d : Double) (exponent : Int) : Option Double :=
  if 0 ≤ exponent then
    if d.isZero then some d
    else if 308 < exponent then none
    else d.mul? (tenTo exponent.toNat)
  else
    let places := (-exponent).toNat
    let steps := (places - 1) / 308
    (d.shrink? steps).bind fun rest => rest.div? (tenTo (places - 308 * steps))

/-- Reads `± significand · 10 ^ exponent`: the significand is rounded first and then scaled. -/
def ofDecimal? (negative : Bool) (significand : Nat) (exponent : Int) : Option Double := do
  let whole ← ofRatio? significand 1
  let scaled ← whole.scaleTen? exponent
  return { scaled with negative }

end Double

end RecordQuery
