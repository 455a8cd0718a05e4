import RecordQuery.Json.Printer
import RecordQuery.Proofs.Nearest
import Mathlib.Data.List.TakeWhile

/-!
# The text of a number

The text of a decimal is read back by splitting it at the exponent mark and at the point, which
gives the value of the decimal in either notation. A double is written with a point or an exponent
and an integer with neither, so the text of a number tells the number.
-/

namespace RecordQuery

namespace Text

def before (mark : Char) (text : List Char) : List Char := text.takeWhile (· ≠ mark)

def after (mark : Char) (text : List Char) : List Char := (text.dropWhile (· ≠ mark)).drop 1

/-- The text as it is split at its first mark, or whole when it has none. -/
theorem before_append {mark : Char} {front : List Char} (h : mark ∉ front) (back : List Char) :
    before mark (front ++ mark :: back) = front ∧ after mark (front ++ mark :: back) = back := by
  have hfront : ∀ c ∈ front, decide (c ≠ mark) = true := by
    intro c hc
    rw [decide_eq_true_eq]
    rintro rfl
    exact h hc
  constructor
  · rw [before, List.takeWhile_append_of_pos hfront]
    simp
  · rw [after, List.dropWhile_append_of_pos hfront]
    simp

theorem before_of_notMem {mark : Char} {text : List Char} (h : mark ∉ text) :
    before mark text = text ∧ after mark text = [] := by
  have htext : ∀ c ∈ text, decide (c ≠ mark) = true := by
    intro c hc
    rw [decide_eq_true_eq]
    rintro rfl
    exact h hc
  constructor
  · exact List.takeWhile_eq_self_iff.mpr htext
  · rw [after, List.dropWhile_eq_nil_iff.mpr htext, List.drop_nil]

end Text

namespace Numeral

open Text

def digitsValue (text : List Char) : Nat := Nat.ofDigitChars 10 text 0

def exponentValue : List Char → Int
  | '-' :: digits => -(digitsValue digits : Int)
  | '+' :: digits => digitsValue digits
  | _ => 0

/-- Digits with a point among them. -/
def significandValue (text : List Char) : ℚ :=
  digitsValue (before '.' text ++ after '.' text) / 10 ^ (after '.' text).length

/-- The number that the text of a decimal stands for. -/
def value (text : List Char) : ℚ :=
  significandValue (before 'e' text) * 10 ^ exponentValue (after 'e' text)

theorem significandValue_digits {text : List Char} (h : '.' ∉ text) :
    significandValue text = digitsValue text := by
  obtain ⟨hbefore, hafter⟩ := before_of_notMem h
  simp [significandValue, hbefore, hafter]

theorem significandValue_point {whole : List Char} (h : '.' ∉ whole) (fraction : List Char) :
    significandValue (whole ++ '.' :: fraction) =
      digitsValue (whole ++ fraction) / 10 ^ fraction.length := by
  obtain ⟨hbefore, hafter⟩ := before_append h fraction
  rw [significandValue, hbefore, hafter]

theorem value_of_notMem {text : List Char} (h : 'e' ∉ text) :
    value text = significandValue text := by
  obtain ⟨hbefore, hafter⟩ := before_of_notMem h
  simp [value, hbefore, hafter, exponentValue]

theorem value_exponent {significand : List Char} (h : 'e' ∉ significand) (exponent : List Char) :
    value (significand ++ 'e' :: exponent) =
      significandValue significand * 10 ^ exponentValue exponent := by
  obtain ⟨hbefore, hafter⟩ := before_append h exponent
  rw [value, hbefore, hafter]

/-- Digits only, so none of the marks. -/
def AllDigits (text : List Char) : Prop := ∀ c ∈ text, c.isDigit = true

theorem AllDigits.notMem {text : List Char} (h : AllDigits text) {mark : Char}
    (hmark : mark.isDigit = false) : mark ∉ text := by
  intro hmem
  rw [h mark hmem] at hmark
  exact Bool.noConfusion hmark

theorem AllDigits.append {front back : List Char} (hfront : AllDigits front)
    (hback : AllDigits back) : AllDigits (front ++ back) := by
  intro c hc
  rcases List.mem_append.mp hc with hc | hc
  · exact hfront c hc
  · exact hback c hc

theorem allDigits_toDigits (n : Nat) : AllDigits (Nat.toDigits 10 n) := fun _ hc =>
  Nat.isDigit_of_mem_toDigits (by decide) (by decide) hc

theorem allDigits_zeros (n : Nat) : AllDigits (List.replicate n '0') := by
  intro c hc
  obtain rfl := List.eq_of_mem_replicate hc
  decide

@[simp] theorem digitsValue_toDigits (n : Nat) : digitsValue (Nat.toDigits 10 n) = n :=
  Nat.ofDigitChars_ten_toDigits

theorem digitsValue_append (front back : List Char) :
    digitsValue (front ++ back) = 10 ^ back.length * digitsValue front + digitsValue back := by
  rw [digitsValue, Nat.ofDigitChars_append, Nat.ofDigitChars_eq_ofDigitChars_zero]
  rfl

@[simp] theorem digitsValue_zeros (n : Nat) : digitsValue (List.replicate n '0') = 0 := by
  simp [digitsValue]

theorem exponentValue_signed (exponent : Int) :
    exponentValue ((if exponent < 0 then '-' else '+') :: Nat.toDigits 10 exponent.natAbs) =
      exponent := by
  split
  · simp only [exponentValue, digitsValue_toDigits]
    omega
  · simp only [exponentValue, digitsValue_toDigits]
    omega

end Numeral

namespace Decimal

open Numeral

theorem allDigits_chars (d : Decimal) : AllDigits d.chars := allDigits_toDigits d.digits

@[simp] theorem digitsValue_chars (d : Decimal) : digitsValue d.chars = d.digits :=
  digitsValue_toDigits d.digits

/-- Digits before a point and digits after it, which stand for the decimal. -/
theorem significandValue_split (d : Decimal) {whole fraction : List Char}
    (hwhole : AllDigits whole) (hdigits : digitsValue (whole ++ fraction) = d.digits)
    (hlength : (fraction.length : Int) = -d.exponent) :
    significandValue (whole ++ '.' :: fraction) = d.value := by
  rw [significandValue_point (hwhole.notMem (by decide)), hdigits, value,
    show d.exponent = -(fraction.length : Int) by omega, zpow_neg, zpow_natCast, div_eq_mul_inv]

theorem significandValue_positional (d : Decimal) :
    significandValue d.positional = d.value := by
  unfold positional
  split
  · rename_i hexponent
    have hall := d.allDigits_chars.append (allDigits_zeros d.exponent.toNat)
    have hpower : (10 : ℚ) ^ d.exponent = 10 ^ d.exponent.toNat := by
      rw [← zpow_natCast, Int.toNat_of_nonneg hexponent]
    rw [significandValue_digits (hall.notMem (by decide)), digitsValue_append, digitsValue_chars,
      digitsValue_zeros, List.length_replicate, value, hpower]
    push_cast
    ring
  · rename_i hexponent
    simp only
    split
    · rename_i hwhole
      have htake : AllDigits (d.chars.take (d.chars.length + d.exponent).toNat) :=
        fun c hc => d.allDigits_chars c (List.mem_of_mem_take hc)
      apply d.significandValue_split htake
      · rw [List.take_append_drop, digitsValue_chars]
      · rw [List.length_drop]
        omega
    · rename_i hwhole
      have hzero : AllDigits ['0'] := allDigits_zeros 1
      have hshape : ∀ zeros : List Char,
          '0' :: '.' :: zeros ++ d.chars = ['0'] ++ '.' :: (zeros ++ d.chars) := fun _ => rfl
      rw [hshape]
      apply d.significandValue_split hzero
      · rw [digitsValue_append, digitsValue_append, digitsValue_zeros, digitsValue_chars]
        simp [digitsValue, Nat.ofDigitChars_cons]
      · rw [List.length_append, List.length_replicate]
        omega

/-- A fraction of zero changes nothing. -/
theorem significandValue_positional_zero {d : Decimal} (h : 0 ≤ d.exponent) :
    significandValue (d.positional ++ ['.', '0']) = d.value := by
  have hall : AllDigits d.positional := by
    rw [positional, if_pos h]
    exact d.allDigits_chars.append (allDigits_zeros d.exponent.toNat)
  have hmark : '.' ∉ d.positional := hall.notMem (by decide)
  have hzero : digitsValue ['0'] = 0 := digitsValue_zeros 1
  rw [← significandValue_positional, significandValue_digits hmark, significandValue_point hmark,
    digitsValue_append, hzero]
  push_cast
  simp

theorem notMem_positional (d : Decimal) : 'e' ∉ d.positional := by
  have hchars := d.allDigits_chars
  have hzeros := fun n => (allDigits_zeros n).notMem (show ('e' : Char).isDigit = false by decide)
  have hmark : 'e' ∉ d.chars := hchars.notMem (by decide)
  unfold positional
  split
  · simp only [List.mem_append, not_or]
    exact ⟨hmark, hzeros _⟩
  · simp only
    split
    · simp only [List.mem_append, List.mem_cons, not_or]
      exact ⟨fun h => hmark (List.mem_of_mem_take h), by decide,
        fun h => hmark (List.mem_of_mem_drop h)⟩
    · simp only [List.mem_append, List.mem_cons, not_or]
      exact ⟨⟨by decide, by decide, hzeros _⟩, hmark⟩

/-- The leading digit before the point: the exponent makes up for the digits after it. -/
theorem value_scientific (d : Decimal) : Numeral.value d.scientific = d.value := by
  have hdigits := d.allDigits_chars
  have hvalue := d.digitsValue_chars
  have hlength : d.leading = d.exponent + d.chars.length - 1 := rfl
  unfold scientific
  cases hchars : d.chars with
  | nil => exact (Nat.toDigits_ne_nil hchars).elim
  | cons first tail =>
    rw [hchars] at hdigits hvalue hlength
    have hfirst : AllDigits [first] := fun c hc => hdigits c (List.mem_of_mem_take (i := 1) hc)
    have hmark : 'e' ∉ first :: tail := hdigits.notMem (by decide)
    cases tail with
    | nil =>
      rw [value_exponent hmark, significandValue_digits (hdigits.notMem (by decide)), hvalue,
        exponentValue_signed, value, hlength]
      simp
    | cons second rest =>
      have hsignificand : significandValue (first :: '.' :: second :: rest) =
          d.digits / 10 ^ (rest.length + 1) := by
        have hseparator : '.' ∉ [first] := hfirst.notMem (by decide)
        have hpoint := significandValue_point hseparator (second :: rest)
        rw [List.singleton_append, List.singleton_append, hvalue] at hpoint
        exact hpoint
      have hnoMark : 'e' ∉ first :: '.' :: second :: rest := by
        simp only [List.mem_cons, not_or] at hmark ⊢
        exact ⟨hmark.1, by decide, hmark.2⟩
      rw [value_exponent hnoMark, hsignificand, exponentValue_signed, value, hlength,
        show d.exponent + ((first :: second :: rest).length : Nat) - 1 =
          d.exponent + ((rest.length + 1 : Nat) : Int) by simp only [List.length_cons]; omega,
        zpow_add₀ (by norm_num), zpow_natCast]
      field_simp

/-- The text of a decimal in a document: positional when the leading digit is at a place from
`10 ^ -5` to `10 ^ 15`. -/
def text (d : Decimal) : List Char :=
  if -5 ≤ d.leading ∧ d.leading < 16 then
    if d.exponent < 0 then d.positional else d.positional ++ ['.', '0']
  else d.scientific

theorem value_text (d : Decimal) : Numeral.value d.text = d.value := by
  have hmark := d.notMem_positional
  unfold text
  split
  · split
    · rw [value_of_notMem hmark, significandValue_positional]
    · rename_i hexponent
      have hpoint : 'e' ∉ d.positional ++ ['.', '0'] := by
        simp only [List.mem_append, not_or]
        exact ⟨hmark, by decide⟩
      rw [value_of_notMem hpoint, significandValue_positional_zero (by omega)]
  · exact d.value_scientific

/-- A point or an exponent is always written. -/
theorem mark_mem_text (d : Decimal) : '.' ∈ d.text ∨ 'e' ∈ d.text := by
  unfold text
  split
  · split
    · rename_i hexponent
      have hpoint : '.' ∈ d.positional := by
        rw [positional, if_neg (by omega)]
        simp only
        split <;> simp
      exact .inl hpoint
    · exact .inl (by simp)
  · exact .inr (by simp [scientific])

end Decimal

/-- A character that occurs in the text of a number. -/
def Numeral.isPart (c : Char) : Bool := c.isDigit || c ∈ ['-', '+', '.', 'e']

namespace Decimal

open Numeral

theorem isPart_of_allDigits {text : List Char} (h : AllDigits text) {c : Char} (hc : c ∈ text) :
    isPart c = true := by
  rw [isPart, h c hc, Bool.true_or]

theorem isPart_positional (d : Decimal) {c : Char} (hc : c ∈ d.positional) : isPart c = true := by
  have hchars : ∀ other ∈ d.chars, isPart other = true := fun _ =>
    isPart_of_allDigits d.allDigits_chars
  have hzeros : ∀ n, ∀ other ∈ List.replicate n '0', isPart other = true := fun n _ =>
    isPart_of_allDigits (allDigits_zeros n)
  unfold positional at hc
  split at hc
  · rcases List.mem_append.mp hc with hc | hc
    · exact hchars c hc
    · exact hzeros _ c hc
  · simp only at hc
    split at hc
    · simp only [List.mem_append, List.mem_cons] at hc
      rcases hc with hc | rfl | hc
      · exact hchars c (List.mem_of_mem_take hc)
      · decide
      · exact hchars c (List.mem_of_mem_drop hc)
    · simp only [List.mem_append, List.mem_cons] at hc
      rcases hc with (rfl | rfl | hc) | hc
      · decide
      · decide
      · exact hzeros _ c hc
      · exact hchars c hc

theorem isPart_scientific (d : Decimal) {c : Char} (hc : c ∈ d.scientific) : isPart c = true := by
  have hchars : ∀ other ∈ d.chars, isPart other = true := fun _ =>
    isPart_of_allDigits d.allDigits_chars
  have hexponent : ∀ other ∈ Nat.toDigits 10 d.leading.natAbs, isPart other = true := fun _ =>
    isPart_of_allDigits (allDigits_toDigits _)
  have hsign : isPart (if d.leading < 0 then '-' else '+') = true := by
    split <;> decide
  simp only [scientific, List.mem_append, List.mem_cons] at hc
  rcases hc with hc | rfl | rfl | hc
  · split at hc
    · rename_i first second rest heq
      rw [heq] at hchars
      simp only [List.mem_cons] at hc hchars
      rcases hc with rfl | rfl | hc
      · exact hchars _ (.inl rfl)
      · decide
      · exact hchars c (.inr hc)
    · exact hchars c hc
  · decide
  · exact hsign
  · exact hexponent c hc

theorem isPart_text (d : Decimal) {c : Char} (hc : c ∈ d.text) : isPart c = true := by
  unfold text at hc
  split at hc
  · split at hc
    · exact d.isPart_positional hc
    · rcases List.mem_append.mp hc with hc | hc
      · exact d.isPart_positional hc
      · simp only [List.mem_cons, List.not_mem_nil, or_false] at hc
        rcases hc with rfl | rfl <;> decide
  · exact d.isPart_scientific hc

theorem exists_head_chars (d : Decimal) :
    ∃ first, d.chars.head? = some first ∧ first.isDigit = true := by
  obtain ⟨first, tail, hchars⟩ := List.exists_cons_of_ne_nil
    (show d.chars ≠ [] from Nat.toDigits_ne_nil)
  refine ⟨first, by rw [hchars, List.head?_cons], ?_⟩
  exact d.allDigits_chars first (by rw [hchars]; exact List.mem_cons_self)

theorem exists_head_positional (d : Decimal) :
    ∃ first, d.positional.head? = some first ∧ first.isDigit = true := by
  obtain ⟨first, hfirst, hdigit⟩ := d.exists_head_chars
  unfold positional
  split
  · exact ⟨first, by rw [List.head?_append, hfirst, Option.some_or], hdigit⟩
  · simp only
    split
    · rename_i hwhole
      refine ⟨first, ?_, hdigit⟩
      rw [List.head?_append, List.head?_take, if_neg (by omega), hfirst, Option.some_or]
    · exact ⟨'0', rfl, by decide⟩

/-- The text begins with a digit, so a sign before it can be told. -/
theorem exists_head_text (d : Decimal) :
    ∃ first, d.text.head? = some first ∧ first.isDigit = true := by
  obtain ⟨first, hfirst, hdigit⟩ := d.exists_head_positional
  unfold text
  split
  · split
    · exact ⟨first, hfirst, hdigit⟩
    · exact ⟨first, by rw [List.head?_append, hfirst, Option.some_or], hdigit⟩
  · obtain ⟨leading, hleading, hdigit⟩ := d.exists_head_chars
    refine ⟨leading, ?_, hdigit⟩
    unfold scientific
    split
    · rename_i heq
      rw [heq] at hleading
      exact hleading
    · rw [List.head?_append, hleading, Option.some_or]

end Decimal

namespace Double

theorem jsonChars_eq (d : Double) :
    d.jsonChars =
      if d.negative then '-' :: (d.shortest .toEven).text else (d.shortest .toEven).text :=
  rfl

theorem jsonChars_injective {d e : Double} (h : d.jsonChars = e.jsonChars) : d = e := by
  have hsign : ∀ a b : Decimal, a.text ≠ '-' :: b.text := by
    intro a b htext
    obtain ⟨first, hfirst, hdigit⟩ := a.exists_head_text
    rw [htext, List.head?_cons] at hfirst
    obtain rfl := Option.some.inj hfirst
    exact absurd hdigit (by decide)
  rw [jsonChars_eq, jsonChars_eq] at h
  have htext : d.negative = e.negative ∧ (d.shortest .toEven).text = (e.shortest .toEven).text := by
    cases hd : d.negative <;> cases he : e.negative <;> simp only [hd, he] at h
    · exact ⟨rfl, h⟩
    · exact (hsign _ _ h).elim
    · exact (hsign _ _ h.symm).elim
    · exact ⟨rfl, (List.cons.inj h).2⟩
  obtain ⟨hnegative, htext⟩ := htext
  have hvalue : (d.shortest .toEven).value = (e.shortest .toEven).value := by
    rw [← Decimal.value_text, htext, Decimal.value_text]
  obtain ⟨hmantissa, hexponent⟩ := magnitude_eq_of_value_shortest hvalue
  cases d
  cases e
  simp only at hnegative hmantissa hexponent
  subst hnegative hmantissa hexponent
  rfl

theorem isPart_jsonChars (d : Double) {c : Char} (hc : c ∈ d.jsonChars) :
    Numeral.isPart c = true := by
  rw [jsonChars_eq] at hc
  split at hc
  · rcases List.mem_cons.mp hc with rfl | hc
    · decide
    · exact Decimal.isPart_text _ hc
  · exact Decimal.isPart_text _ hc

theorem mark_mem_jsonChars (d : Double) : '.' ∈ d.jsonChars ∨ 'e' ∈ d.jsonChars := by
  have hmark := (d.shortest .toEven).mark_mem_text
  rw [jsonChars_eq]
  split
  · exact hmark.imp (List.mem_cons_of_mem _) (List.mem_cons_of_mem _)
  · exact hmark

end Double

namespace Number

open Numeral

theorem chars_int (value : Int) :
    (Number.int value).chars =
      if value < 0 then '-' :: Nat.toDigits 10 value.natAbs else Nat.toDigits 10 value.natAbs := by
  cases value with
  | ofNat n =>
    rw [if_neg (by simp)]
    exact Nat.toList_repr
  | negSucc n =>
    rw [if_pos (by simp)]
    have hrepr : (Number.int (.negSucc n)).chars = ("-" ++ Nat.repr (n + 1)).toList := rfl
    rw [hrepr, String.toList_append, Nat.toList_repr]
    rfl

theorem isPart_chars (number : Number) {c : Char} (hc : c ∈ number.chars) : isPart c = true := by
  cases number with
  | double value => exact value.isPart_jsonChars hc
  | int value =>
    rw [chars_int] at hc
    split at hc
    · rcases List.mem_cons.mp hc with rfl | hc
      · decide
      · exact Decimal.isPart_of_allDigits (allDigits_toDigits _) hc
    · exact Decimal.isPart_of_allDigits (allDigits_toDigits _) hc

theorem int_eq_of_chars {value other : Int}
    (h : (Number.int value).chars = (Number.int other).chars) : value = other := by
  have hsign : ∀ a b : Nat, Nat.toDigits 10 a ≠ '-' :: Nat.toDigits 10 b := by
    intro a b heq
    exact (allDigits_toDigits a).notMem (show ('-' : Char).isDigit = false by decide)
      (by rw [heq]; exact List.mem_cons_self)
  have hdigits : ∀ {a b : Nat}, Nat.toDigits 10 a = Nat.toDigits 10 b → a = b := by
    intro a b heq
    rw [← digitsValue_toDigits a, heq, digitsValue_toDigits]
  rw [chars_int, chars_int] at h
  split at h <;> split at h
  · have habs := hdigits (List.cons.inj h).2
    omega
  · exact (hsign _ _ h.symm).elim
  · exact (hsign _ _ h).elim
  · have habs := hdigits h
    omega

theorem chars_int_ne_double (value : Int) (d : Double) :
    (Number.int value).chars ≠ d.jsonChars := by
  intro h
  have hparts : ∀ mark : Char, mark ≠ '-' → mark.isDigit = false → mark ∉ d.jsonChars := by
    intro mark hminus hdigit
    have hnotMem := (allDigits_toDigits value.natAbs).notMem hdigit
    rw [← h, chars_int]
    split
    · rw [List.mem_cons, not_or]
      exact ⟨hminus, hnotMem⟩
    · exact hnotMem
  rcases d.mark_mem_jsonChars with hpoint | hexponent
  · exact hparts '.' (by decide) (by decide) hpoint
  · exact hparts 'e' (by decide) (by decide) hexponent

/-- The text of a number tells the number. -/
theorem chars_injective {number other : Number} (h : number.chars = other.chars) :
    number = other := by
  cases number with
  | int value =>
    cases other with
    | int second => rw [int_eq_of_chars h]
    | double second => exact (chars_int_ne_double value second h).elim
  | double value =>
    cases other with
    | int second => exact (chars_int_ne_double second value h.symm).elim
    | double second => rw [Double.jsonChars_injective h]

theorem chars_ne_nil (number : Number) : number.chars ≠ [] := by
  cases number with
  | int value =>
    rw [chars_int]
    split
    · exact List.cons_ne_nil _ _
    · exact Nat.toDigits_ne_nil
  | double value =>
    intro h
    have hmark := value.mark_mem_jsonChars
    rw [show value.jsonChars = [] from h] at hmark
    simp at hmark

end Number

end RecordQuery
