import RecordQuery.Double.Shortest
import Mathlib.Algebra.Order.Field.Power
import Mathlib.Algebra.Order.Field.Rat
import Mathlib.Tactic.FieldSimp
import Mathlib.Tactic.Linarith
import Mathlib.Tactic.Positivity
import Mathlib.Tactic.Ring

/-!
# Decimals that round to a double

A magnitude covers the values from the midpoint below it to the midpoint above it, a midpoint itself
only if its mantissa is even. The values covered by one magnitude lie apart from those of any other,
and the shortest decimal of a magnitude is covered by it, so its value tells the magnitude.
-/

namespace RecordQuery

/-- The number that a decimal stands for. -/
def Decimal.value (d : Decimal) : ℚ := d.digits * (10 : ℚ) ^ d.exponent

namespace Double

theorem zpow_mul_pow_toNat {base : ℚ} (h : base ≠ 0) (exponent : Int) :
    base ^ exponent * base ^ (-exponent).toNat = base ^ exponent.toNat := by
  rw [← zpow_natCast, ← zpow_natCast, ← zpow_add₀ h]
  congr 1
  omega

/-- Both sides of a comparison brought to natural numbers by one factor. -/
theorem scaled_eq (a : Nat) (k : Int) (b : Nat) (j : Int) :
    ((a * Nat.pow 10 k.toNat * Nat.pow 2 (-j).toNat : Nat) : ℚ) =
        a * (10 : ℚ) ^ k * (10 ^ (-k).toNat * 2 ^ (-j).toNat) ∧
      ((b * Nat.pow 2 j.toNat * Nat.pow 10 (-k).toNat : Nat) : ℚ) =
        b * (2 : ℚ) ^ j * (10 ^ (-k).toNat * 2 ^ (-j).toNat) := by
  have hten := zpow_mul_pow_toNat (show (10 : ℚ) ≠ 0 by norm_num) k
  have htwo := zpow_mul_pow_toNat (show (2 : ℚ) ≠ 0 by norm_num) j
  constructor
  · push_cast [Nat.pow_eq]
    rw [← hten]
    ring
  · push_cast [Nat.pow_eq]
    rw [← htwo]
    ring

theorem compareScaled_eq_lt (a : Nat) (k : Int) (b : Nat) (j : Int) :
    compareScaled a k b j = .lt ↔ a * (10 : ℚ) ^ k < b * (2 : ℚ) ^ j := by
  obtain ⟨hleft, hright⟩ := scaled_eq a k b j
  have hfactor : (0 : ℚ) < 10 ^ (-k).toNat * 2 ^ (-j).toNat := by positivity
  rw [compareScaled, Nat.compare_eq_lt, ← Nat.cast_lt (α := ℚ), hleft, hright,
    mul_lt_mul_iff_left₀ hfactor]

theorem compareScaled_eq_gt (a : Nat) (k : Int) (b : Nat) (j : Int) :
    compareScaled a k b j = .gt ↔ b * (2 : ℚ) ^ j < a * (10 : ℚ) ^ k := by
  obtain ⟨hleft, hright⟩ := scaled_eq a k b j
  have hfactor : (0 : ℚ) < 10 ^ (-k).toNat * 2 ^ (-j).toNat := by positivity
  rw [compareScaled, Nat.compare_eq_gt, ← Nat.cast_lt (α := ℚ), hleft, hright,
    mul_lt_mul_iff_left₀ hfactor]

theorem compareScaled_eq_eq (a : Nat) (k : Int) (b : Nat) (j : Int) :
    compareScaled a k b j = .eq ↔ a * (10 : ℚ) ^ k = b * (2 : ℚ) ^ j := by
  obtain ⟨hleft, hright⟩ := scaled_eq a k b j
  have hfactor : (10 : ℚ) ^ (-k).toNat * 2 ^ (-j).toNat ≠ 0 := by positivity
  rw [compareScaled, Nat.compare_eq_eq, ← Nat.cast_inj (R := ℚ), hleft, hright,
    mul_left_inj' hfactor]

/-- Twice the distance to the midpoint below, in quarters of the last place. -/
def gap (d : Double) : Nat := if d.mantissa = 2 ^ 52 ∧ leastExponent < d.exponent then 1 else 2

/-- The midpoint to the magnitude below. -/
def low (d : Double) : ℚ := ((4 * d.mantissa - d.gap : Nat) : ℚ) * 2 ^ (d.exponent - 2)

/-- The midpoint to the magnitude above. -/
def high (d : Double) : ℚ := ((4 * d.mantissa + 2 : Nat) : ℚ) * 2 ^ (d.exponent - 2)

/-- A value that rounds to the magnitude. -/
def Covers (d : Double) (value : ℚ) : Prop :=
  (d.low < value ∨ d.mantissa % 2 = 0 ∧ value = d.low) ∧
    (value < d.high ∨ d.mantissa % 2 = 0 ∧ value = d.high)

theorem readsBack_iff (d : Double) (c : Nat) (k : Int) :
    d.readsBack c k = true ↔ d.Covers (c * (10 : ℚ) ^ k) := by
  simp only [readsBack, Covers, low, high, gap, Bool.and_eq_true, Bool.or_eq_true, beq_iff_eq,
    decide_eq_true_eq, compareScaled_eq_lt, compareScaled_eq_gt, compareScaled_eq_eq]

/-- Everything covered by the one is below everything covered by the other. -/
def Below (d e : Double) : Prop :=
  d.high < e.low ∨ d.high = e.low ∧ (d.mantissa % 2 = 1 ∨ e.mantissa % 2 = 1)

theorem Below.not_covers {d e : Double} (h : Below d e) {value : ℚ} (hd : d.Covers value)
    (he : e.Covers value) : False := by
  obtain ⟨-, hhigh⟩ := hd
  obtain ⟨hlow, -⟩ := he
  rcases h with hlt | ⟨heq, hodd⟩
  · have hupper : value ≤ d.high := by
      rcases hhigh with hhigh | ⟨-, hhigh⟩
      · exact hhigh.le
      · exact hhigh.le
    have hlower : e.low ≤ value := by
      rcases hlow with hlow | ⟨-, hlow⟩
      · exact hlow.le
      · exact hlow.ge
    linarith
  · rcases hhigh with hhigh | ⟨heven, hhigh⟩
    · rcases hlow with hlow | ⟨-, hlow⟩
      · linarith
      · linarith
    · rcases hlow with hlow | ⟨hevenOther, -⟩
      · linarith
      · omega

theorem gap_bounds (d : Double) : 1 ≤ d.gap ∧ d.gap ≤ 2 := by
  unfold gap
  split <;> omega

theorem below_of_mantissa_lt {d e : Double} (hexponent : d.exponent = e.exponent)
    (h : d.mantissa < e.mantissa) : Below d e := by
  have hunit : (0 : ℚ) < 2 ^ (e.exponent - 2) := by positivity
  have hgap := gap_bounds e
  unfold Below high low
  rw [hexponent, mul_lt_mul_iff_left₀ hunit, mul_left_inj' hunit.ne', Nat.cast_lt, Nat.cast_inj]
  omega

/-- A magnitude with a greater exponent has all bits of its mantissa. -/
theorem below_of_exponent_lt {d e : Double} (h : d.exponent < e.exponent) : Below d e := by
  have hunit : (0 : ℚ) < 2 ^ (d.exponent - 2) := by positivity
  obtain ⟨steps, hsteps⟩ : ∃ steps : Nat, e.exponent = d.exponent + (steps + 1 : Nat) :=
    ⟨(e.exponent - d.exponent - 1).toNat, by omega⟩
  have hscale : (2 : ℚ) ^ (e.exponent - 2) = (2 ^ (steps + 1) : Nat) * 2 ^ (d.exponent - 2) := by
    rw [show e.exponent - 2 = (steps + 1 : Nat) + (d.exponent - 2) by omega,
      zpow_add₀ (by norm_num), zpow_natCast]
    push_cast
    rfl
  obtain ⟨hleast, -, hd, -⟩ := d.canonical
  obtain ⟨-, -, he, hfull⟩ := e.canonical
  have hpower : 2 ≤ 2 ^ (steps + 1) := by
    have hpositive : 0 < 2 ^ steps := Nat.two_pow_pos steps
    rw [Nat.pow_succ]
    omega
  have hbits : 2 ^ 52 ≤ e.mantissa := by omega
  have hgap : e.gap = 1 ∧ e.mantissa = 2 ^ 52 ∨ e.gap = 2 ∧ 2 ^ 52 < e.mantissa := by
    unfold gap
    split <;> omega
  have hscaled : (4 * e.mantissa - e.gap) * 2 ≤ (4 * e.mantissa - e.gap) * 2 ^ (steps + 1) :=
    Nat.mul_le_mul_left _ hpower
  unfold Below high low
  rw [hscale, ← mul_assoc, mul_lt_mul_iff_left₀ hunit, mul_left_inj' hunit.ne', ← Nat.cast_mul,
    Nat.cast_lt, Nat.cast_inj]
  omega

/-- A value is covered by one magnitude only. -/
theorem Covers.unique {d e : Double} {value : ℚ} (hd : d.Covers value) (he : e.Covers value) :
    d.mantissa = e.mantissa ∧ d.exponent = e.exponent := by
  have hexponent : d.exponent = e.exponent := by
    rcases lt_trichotomy d.exponent e.exponent with hlt | heq | hgt
    · exact ((below_of_exponent_lt hlt).not_covers hd he).elim
    · exact heq
    · exact ((below_of_exponent_lt hgt).not_covers he hd).elim
  refine ⟨?_, hexponent⟩
  rcases Nat.lt_trichotomy d.mantissa e.mantissa with hlt | heq | hgt
  · exact ((below_of_mantissa_lt hexponent hlt).not_covers hd he).elim
  · exact heq
  · exact ((below_of_mantissa_lt hexponent.symm hgt).not_covers he hd).elim

theorem covers_magnitude {d : Double} (h : d.isZero = false) :
    d.Covers (d.mantissa * (2 : ℚ) ^ d.exponent) := by
  have hmantissa : 0 < d.mantissa := by
    rw [isZero, beq_eq_false_iff_ne] at h
    omega
  have hgap := gap_bounds d
  have hunit : (0 : ℚ) < 2 ^ (d.exponent - 2) := by positivity
  have hquarters : (d.mantissa : ℚ) * 2 ^ d.exponent =
      ((4 * d.mantissa : Nat) : ℚ) * 2 ^ (d.exponent - 2) := by
    rw [zpow_sub₀ (by norm_num)]
    push_cast
    ring
  unfold Covers low high
  rw [hquarters, mul_lt_mul_iff_left₀ hunit, mul_lt_mul_iff_left₀ hunit, Nat.cast_lt, Nat.cast_lt]
  omega

theorem value_allDigits (d : Double) : d.allDigits.value = d.mantissa * (2 : ℚ) ^ d.exponent := by
  unfold allDigits Decimal.value
  split
  · rename_i hexponent
    obtain ⟨places, hplaces⟩ := Int.eq_ofNat_of_zero_le hexponent
    simp [hplaces]
  · rename_i hexponent
    obtain ⟨places, hplaces⟩ : ∃ places : Nat, d.exponent = -(places : Int) :=
      ⟨(-d.exponent).toNat, by omega⟩
    have hten : (10 : ℚ) ^ places = 2 ^ places * 5 ^ places := by
      rw [← mul_pow]
      norm_num
    rw [hplaces]
    simp only [neg_neg, Int.toNat_natCast, Nat.pow_eq, zpow_neg, zpow_natCast, Nat.cast_mul,
      Nat.cast_pow, Nat.cast_ofNat, hten]
    field_simp

/-- The upper neighbour on a grid, also where it is the next power of ten. -/
theorem value_upper (c length : Nat) (k : Int) :
    (if c + 1 = Nat.pow 10 length then (⟨1, k + length⟩ : Decimal) else ⟨c + 1, k⟩).value =
      ((c + 1 : Nat) : ℚ) * 10 ^ k := by
  split
  · rename_i hpower
    rw [hpower, Decimal.value, zpow_add₀ (by norm_num), zpow_natCast]
    push_cast [Nat.pow_eq]
    ring
  · rfl

theorem covers_onGrid {tie : Tie} {d : Double} {length : Nat} {decimal : Decimal}
    (h : onGrid tie d length = some decimal) : d.Covers decimal.value := by
  simp only [onGrid] at h
  split at h
  · rename_i hlower hupper
    rw [readsBack_iff] at hlower hupper
    obtain rfl := Option.some.inj h
    split
    · rw [value_upper]
      exact hupper
    · exact hlower
  · rename_i hlower _
    rw [readsBack_iff] at hlower
    obtain rfl := Option.some.inj h
    exact hlower
  · rename_i _ hupper
    rw [readsBack_iff] at hupper
    obtain rfl := Option.some.inj h
    rw [value_upper]
    exact hupper
  · simp at h

theorem covers_shortest (tie : Tie) {d : Double} (h : d.isZero = false) :
    d.Covers (d.shortest tie).value := by
  rw [shortest, h, if_neg (by decide)]
  cases hfound : (List.range 17).findSome? fun n => onGrid tie d (n + 1) with
  | none =>
    rw [Option.getD_none, value_allDigits]
    exact covers_magnitude h
  | some decimal =>
    obtain ⟨n, -, hgrid⟩ := List.exists_of_findSome?_eq_some hfound
    exact covers_onGrid hgrid

theorem Covers.pos {d : Double} {value : ℚ} (h : d.Covers value) (hzero : d.isZero = false) :
    0 < value := by
  have hmantissa : 0 < d.mantissa := by
    rw [isZero, beq_eq_false_iff_ne] at hzero
    omega
  have hgap := gap_bounds d
  have hquarters : 0 < 4 * d.mantissa - d.gap := by omega
  have hlow : 0 < d.low := by
    unfold low
    positivity
  rcases h.1 with hlt | ⟨-, heq⟩
  · exact hlow.trans hlt
  · rwa [heq]

theorem exponent_of_isZero {d : Double} (h : d.isZero = true) :
    d.mantissa = 0 ∧ d.exponent = leastExponent := by
  have hmantissa : d.mantissa = 0 := by simpa [isZero] using h
  obtain ⟨-, -, -, hleast | hfull⟩ := d.canonical
  · exact ⟨hmantissa, hleast⟩
  · omega

theorem value_shortest_eq_zero (tie : Tie) (d : Double) :
    (d.shortest tie).value = 0 ↔ d.isZero = true := by
  constructor
  · intro h
    cases hzero : d.isZero with
    | true => rfl
    | false =>
      have hpos := (covers_shortest tie hzero).pos hzero
      exact (hpos.ne' h).elim
  · intro h
    rw [shortest, if_pos h, Decimal.value]
    norm_num

/-- The value of the shortest decimal tells the magnitude. -/
theorem magnitude_eq_of_value_shortest {tie : Tie} {d e : Double}
    (h : (d.shortest tie).value = (e.shortest tie).value) :
    d.mantissa = e.mantissa ∧ d.exponent = e.exponent := by
  have hzero : d.isZero = e.isZero := by
    rw [Bool.eq_iff_iff, ← value_shortest_eq_zero tie, ← value_shortest_eq_zero tie, h]
  cases he : e.isZero with
  | true =>
    obtain ⟨hmantissa, hexponent⟩ := exponent_of_isZero (hzero.trans he)
    obtain ⟨hmantissaOther, hexponentOther⟩ := exponent_of_isZero he
    exact ⟨hmantissa.trans hmantissaOther.symm, hexponent.trans hexponentOther.symm⟩
  | false =>
    have hcovers := covers_shortest tie (hzero.trans he)
    rw [h] at hcovers
    exact hcovers.unique (covers_shortest tie he)

end Double

end RecordQuery
