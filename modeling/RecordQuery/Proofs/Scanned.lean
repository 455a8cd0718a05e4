import RecordQuery.Json.Reader
import RecordQuery.Proofs.Printed

/-!
# The tokens of printed text

A printed word, string or number is scanned as one leaf, and scanning goes on behind it with nothing
begun. A number ends only where a comma or a closing bracket or nothing at all follows, and only
that follows a printed value.
-/

namespace RecordQuery

namespace Scan

/-- What may follow a printed value. -/
def Closes (rest : List Char) : Prop := ∀ c ∈ rest.head?, c = ',' ∨ c = ']' ∨ c = '\x7d'

theorem closes_nil : Closes [] := by
  simp [Closes]

theorem closes_itemsChars (items : List Json) (rest : List Char) :
    Closes (Json.itemsChars items ++ rest) := by
  cases items <;> simp [Closes, Json.itemsChars]

theorem closes_entriesChars (entries : List (String × Json)) (rest : List Char) :
    Closes (Json.entriesChars entries ++ rest) := by
  obtain _ | ⟨⟨key, value⟩, more⟩ := entries <;> simp [Closes, Json.entriesChars]

theorem tokens_of_step {scan next : Scan} {c : Char} (h : scan.step c = ([], next))
    (rest : List Char) : tokens scan (c :: rest) = tokens next rest := by
  rw [tokens, h]
  rfl

/-- A complete word is told by whatever comes after it. -/
theorem tokens_word (doc : Doc) (rest : List Char) :
    tokens (.word [] doc) rest = .leaf doc :: tokens .between rest := by
  cases rest <;> rfl

theorem tokens_null (rest : List Char) :
    tokens .between (Json.null.chars ++ rest) = .leaf .null :: tokens .between rest := by
  rw [← tokens_word]
  simp only [Json.chars]
  rfl

theorem tokens_bool (value : Bool) (rest : List Char) :
    tokens .between ((Json.bool value).chars ++ rest) =
      .leaf (.bool value) :: tokens .between rest := by
  rw [← tokens_word]
  cases value <;> simp only [Json.chars] <;> rfl

theorem byteCount_hexDigit : ∀ high < 16, byteCount [Json.hexDigit high, '0', '0'] < 4 := by
  decide

theorem le_byteCount_hexDigit : ∀ high < 16, ∀ low < 16,
    ¬ byteCount [Json.hexDigit low, Json.hexDigit high, '0', '0'] < 4 := by
  decide

theorem hexNumber?_hexDigit : ∀ high < 16, ∀ low < 16,
    hexNumber? [Json.hexDigit low, Json.hexDigit high, '0', '0'] = some (16 * high + low) := by
  decide

theorem closeHex_of_small {unit : Nat} (h : unit < 32) (read : List Char) :
    closeHex unit none read none = .string (Char.ofNat unit :: read) none := by
  have hlow : ¬ 0xDC00 ≤ unit := by omega
  have hhigh : ¬ 0xD800 ≤ unit := by omega
  simp [closeHex, hlow, hhigh]

/-- An escaped character is read as the character. -/
theorem tokens_escapeChar (c : Char) (read rest : List Char) :
    tokens (.string read none) (Json.escapeChar c ++ rest) =
      tokens (.string (c :: read) none) rest := by
  unfold Json.escapeChar
  split_ifs with hquote hbackslash hn hr ht hb hf hcontrol
  · rw [hquote]
    rfl
  · rw [hbackslash]
    rfl
  · rw [hn]
    rfl
  · rw [hr]
    rfl
  · rw [ht]
    rfl
  · rw [hb]
    rfl
  · rw [hf]
    rfl
  · have hhigh : c.toNat / 16 < 16 := by omega
    have hlow : c.toNat % 16 < 16 := by omega
    have hunit : 16 * (c.toNat / 16) + c.toNat % 16 = c.toNat := Nat.div_add_mod _ _
    have hnumber := hexNumber?_hexDigit _ hhigh _ hlow
    have hclosed := closeHex_of_small hcontrol read
    rw [hunit] at hnumber
    rw [Char.ofNat_toNat] at hclosed
    have hopen : step (.hex ['0', '0'] none read none) (Json.hexDigit (c.toNat / 16)) =
        ([], .hex [Json.hexDigit (c.toNat / 16), '0', '0'] none read none) := by
      simp only [step, if_pos (byteCount_hexDigit _ hhigh)]
    have hclose : step (.hex [Json.hexDigit (c.toNat / 16), '0', '0'] none read none)
        (Json.hexDigit (c.toNat % 16)) = ([], .string (c :: read) none) := by
      simp only [step, if_neg (le_byteCount_hexDigit _ hhigh _ hlow), hnumber, hclosed]
    calc tokens (.string read none)
          (['\\', 'u', '0', '0', Json.hexDigit (c.toNat / 16), Json.hexDigit (c.toNat % 16)] ++
            rest)
        = tokens (.hex ['0', '0'] none read none)
            (Json.hexDigit (c.toNat / 16) :: Json.hexDigit (c.toNat % 16) :: rest) := rfl
      _ = tokens (.string (c :: read) none) rest := by
        rw [tokens_of_step hopen, tokens_of_step hclose]
  · have hplain : step (.string read none) c = ([], .string (c :: read) none) := by
      simp [step, inString, hquote, hbackslash, hcontrol]
    rw [List.singleton_append, tokens_of_step hplain]

/-- The induction goes through the characters; those read before stand backwards. -/
theorem tokens_flatMap_escapeChar (text read rest : List Char) :
    tokens (.string read none) (text.flatMap Json.escapeChar ++ '"' :: rest) =
      .leaf (.str (String.ofList (read.reverse ++ text))) :: tokens .between rest := by
  induction text generalizing read with
  | nil =>
    rw [List.append_nil]
    rfl
  | cons c text ih =>
    rw [List.flatMap_cons, List.append_assoc, tokens_escapeChar, ih, List.reverse_cons,
      List.append_assoc, List.singleton_append]

theorem tokens_stringChars (text : String) (rest : List Char) :
    tokens .between (Json.stringChars text ++ rest) =
      .leaf (.str text) :: tokens .between rest := by
  have hstring := tokens_flatMap_escapeChar text.toList [] rest
  rw [List.reverse_nil, List.nil_append, String.ofList_toList] at hstring
  rw [← hstring, Json.stringChars, List.append_assoc, List.cons_append, List.singleton_append]
  rfl

/-- From one part of a number a text leads to another part. -/
def Leads (part : NumberPart) (text : List Char) (next : NumberPart) : Prop :=
  ∀ literal, ∃ longer, ∀ rest,
    tokens (.number part literal) (text ++ rest) = tokens (.number next longer) rest

theorem Leads.refl (part : NumberPart) : Leads part [] part :=
  fun literal => ⟨literal, fun _ => rfl⟩

theorem Leads.cons {part first last : NumberPart} {c : Char} {text : List Char}
    (hadvance : ∀ literal, ∃ longer, part.advance literal c = some (first, longer))
    (h : Leads first text last) : Leads part (c :: text) last := by
  intro literal
  obtain ⟨longer, hlonger⟩ := hadvance literal
  obtain ⟨longest, hlongest⟩ := h longer
  refine ⟨longest, fun rest => ?_⟩
  have hstep : step (.number part literal) c = ([], .number first longer) := by
    simp only [step, hlonger]
  rw [List.cons_append, tokens_of_step hstep, hlongest]

theorem Leads.append {part middle last : NumberPart} {text more : List Char}
    (h : Leads part text middle) (hmore : Leads middle more last) :
    Leads part (text ++ more) last := by
  intro literal
  obtain ⟨longer, hlonger⟩ := h literal
  obtain ⟨longest, hlongest⟩ := hmore longer
  exact ⟨longest, fun rest => by rw [List.append_assoc, hlonger, hlongest]⟩

/-- The parts of a number that digits are added to. -/
def digitParts : List NumberPart := [.whole, .fraction, .exponent]

theorem leads_digits {part : NumberPart} (hpart : part ∈ digitParts) {text : List Char}
    (h : Numeral.AllDigits text) : Leads part text part := by
  induction text with
  | nil => exact .refl part
  | cons c text ih =>
    obtain ⟨hc, htext⟩ := List.forall_mem_cons.mp h
    refine .cons (fun literal => ?_) (ih htext)
    simp only [digitParts, List.mem_cons, List.not_mem_nil, or_false] at hpart
    rcases hpart with rfl | rfl | rfl <;> simp [NumberPart.advance, hc]

/-- A number can begin with this text and be in this part after it. -/
structure Opens (text : List Char) (part : NumberPart) : Prop where
  leads : Leads .sign text part
  starts : ∃ literal, ∀ rest,
    tokens .between (text ++ rest) = tokens (.number part literal) rest

theorem Opens.append {text more : List Char} {part next : NumberPart} (h : Opens text part)
    (hmore : Leads part more next) : Opens (text ++ more) next := by
  obtain ⟨literal, hliteral⟩ := h.starts
  obtain ⟨longer, hlonger⟩ := hmore literal
  exact ⟨h.leads.append hmore, longer, fun rest => by
    rw [List.append_assoc, hliteral, hlonger]⟩

theorem opens_zero : Opens ['0'] .zero where
  leads := .cons (fun literal => ⟨literal, rfl⟩) (.refl .zero)
  starts := ⟨{}, fun _ => rfl⟩

/-- The characters that begin something other than digits. -/
def marks : List Char :=
  [' ', '\n', '\t', '\r', '[', ']', '\x7b', '\x7d', ',', ':', '"', 'n', 't', 'f', '-']

theorem isDigit_of_mem_marks : ∀ mark ∈ marks, mark.isDigit = false := by
  simp [marks]

theorem start_digit {c : Char} (hdigit : c.isDigit = true) (hzero : c ≠ '0') :
    start c = ([], .number .whole (Literal.pushWhole {} c)) := by
  have hmarks : ∀ mark ∈ marks, c ≠ mark := by
    rintro mark hmark rfl
    rw [isDigit_of_mem_marks c hmark] at hdigit
    cases hdigit
  simp only [marks, List.forall_mem_cons] at hmarks
  simp [start, blank, hmarks, hzero, hdigit]

theorem opens_digits {c : Char} {text : List Char} (hdigit : c.isDigit = true) (hzero : c ≠ '0')
    (htext : Numeral.AllDigits text) : Opens (c :: text) .whole := by
  have hleads : Leads .whole text .whole := leads_digits (by decide) htext
  refine ⟨.cons (fun literal => ⟨literal.pushWhole c, ?_⟩) hleads, ?_⟩
  · simp [NumberPart.advance, hzero, hdigit]
  · obtain ⟨longer, hlonger⟩ := hleads (Literal.pushWhole {} c)
    refine ⟨longer, fun rest => ?_⟩
    have hstep : step .between c = ([], .number .whole (Literal.pushWhole {} c)) :=
      start_digit hdigit hzero
    rw [List.cons_append, tokens_of_step hstep, hlonger]

theorem leads_fraction {part : NumberPart} (hpart : part ∈ [NumberPart.zero, .whole])
    {text : List Char} (htext : Numeral.AllDigits text) (hne : text ≠ []) :
    Leads part ('.' :: text) .fraction := by
  obtain ⟨c, rest, rfl⟩ := List.exists_cons_of_ne_nil hne
  obtain ⟨hc, hrest⟩ := List.forall_mem_cons.mp htext
  have hdigits : Leads .point (c :: rest) .fraction :=
    .cons (fun literal => ⟨literal.pushFraction c, by simp [NumberPart.advance, hc]⟩)
      (leads_digits (by decide) hrest)
  refine .cons (fun literal => ⟨literal.openFraction, ?_⟩) hdigits
  simp only [List.mem_cons, List.not_mem_nil, or_false] at hpart
  rcases hpart with rfl | rfl <;> rfl

theorem leads_exponent {part : NumberPart} (hpart : part ∈ [NumberPart.zero, .whole, .fraction])
    {sign : Char} (hsign : sign = '+' ∨ sign = '-') {text : List Char}
    (htext : Numeral.AllDigits text) (hne : text ≠ []) :
    Leads part ('e' :: sign :: text) .exponent := by
  obtain ⟨c, rest, rfl⟩ := List.exists_cons_of_ne_nil hne
  obtain ⟨hc, hrest⟩ := List.forall_mem_cons.mp htext
  have hdigits : Leads .markSign (c :: rest) .exponent :=
    .cons (fun literal => ⟨literal.pushExponent c, by simp [NumberPart.advance, hc]⟩)
      (leads_digits (by decide) hrest)
  have hsigned : Leads .mark (sign :: c :: rest) .exponent := by
    refine .cons (fun literal => ?_) hdigits
    rcases hsign with rfl | rfl <;> exact ⟨_, rfl⟩
  refine .cons (fun literal => ?_) hsigned
  simp only [List.mem_cons, List.not_mem_nil, or_false] at hpart
  rcases hpart with rfl | rfl | rfl <;> exact ⟨_, rfl⟩

/-- A complete number is told by what closes it. -/
theorem tokens_number {part : NumberPart} (hpart : part.complete = true) (literal : Literal)
    {rest : List Char} (hrest : Closes rest) :
    tokens (.number part literal) rest = .leaf literal.leaf :: tokens .between rest := by
  cases rest with
  | nil => simp [tokens, atEnd, hpart]
  | cons c rest =>
    have hc : c = ',' ∨ c = ']' ∨ c = '\x7d' := hrest c rfl
    cases part
    all_goals try cases hpart
    all_goals rcases hc with rfl | rfl | rfl <;> rfl

end Scan

namespace Numeral

theorem digitChar_ne_zero : ∀ n < 10, n ≠ 0 → n.digitChar ≠ '0' := by
  decide

/-- The digits of a number other than zero do not begin with zero. -/
theorem exists_toDigits {n : Nat} (h : n ≠ 0) :
    ∃ c text, Nat.toDigits 10 n = c :: text ∧ c.isDigit = true ∧ c ≠ '0' ∧ AllDigits text := by
  induction n using Nat.strong_induction_on with
  | _ n ih =>
    by_cases hsmall : n < 10
    · refine ⟨n.digitChar, [], Nat.toDigits_of_lt_base hsmall, ?_, digitChar_ne_zero n hsmall h, ?_⟩
      · rw [Nat.isDigit_digitChar, decide_eq_true hsmall]
      · simp [AllDigits]
    · obtain ⟨c, text, hdigits, hdigit, hzero, htext⟩ := ih (n / 10) (by omega) (by omega)
      refine ⟨c, text ++ [(n % 10).digitChar], ?_, hdigit, hzero, htext.append ?_⟩
      · rw [Nat.toDigits_of_base_le (by decide) (by omega), hdigits, List.cons_append]
      · have hlast : n % 10 < 10 := Nat.mod_lt n (by decide)
        simp [AllDigits, Nat.isDigit_digitChar, hlast]

end Numeral

namespace Decimal

open Scan Numeral

variable {d : Decimal}

theorem opens_whole (h : d.digits ≠ 0) (hexponent : 0 ≤ d.exponent) :
    Opens d.positional .whole := by
  obtain ⟨c, text, hchars, hdigit, hzero, htext⟩ := exists_toDigits h
  rw [positional, if_pos hexponent, chars, hchars, List.cons_append]
  exact opens_digits hdigit hzero (htext.append (allDigits_zeros _))

theorem opens_fraction (h : d.digits ≠ 0) (hexponent : d.exponent < 0) :
    Opens d.positional .fraction := by
  obtain ⟨c, text, hchars, hdigit, hzero, htext⟩ := exists_toDigits h
  have hall : AllDigits (c :: text) := List.forall_mem_cons.mpr ⟨hdigit, htext⟩
  rw [positional, if_neg (by omega), chars, hchars]
  simp only
  split
  · rename_i hwhole
    obtain ⟨n, hn⟩ : ∃ n, (((c :: text).length : Int) + d.exponent).toNat = n + 1 :=
      Nat.exists_eq_succ_of_ne_zero (by omega)
    have hlength : n + 1 < (c :: text).length := by omega
    have hwholeDigits : AllDigits (text.take n) := fun c hc => htext c (List.mem_of_mem_take hc)
    have hafter : AllDigits ((c :: text).drop (n + 1)) :=
      fun c hc => hall c (List.mem_of_mem_drop hc)
    have hne : (c :: text).drop (n + 1) ≠ [] := by
      rw [Ne, List.drop_eq_nil_iff]
      omega
    rw [hn]
    exact (opens_digits hdigit hzero hwholeDigits).append (leads_fraction (by decide) hafter hne)
  · have hne : List.replicate (-(((c :: text).length : Int) + d.exponent)).toNat '0' ++
        c :: text ≠ [] := by simp
    rw [List.cons_append, List.cons_append]
    exact opens_zero.append <|
      leads_fraction (by decide) ((allDigits_zeros _).append hall) hne

theorem opens_scientific (h : d.digits ≠ 0) : Opens d.scientific .exponent := by
  obtain ⟨c, text, hchars, hdigit, hzero, htext⟩ := exists_toDigits h
  have hsign : (if d.leading < 0 then '-' else '+') = '+' ∨
      (if d.leading < 0 then '-' else '+') = '-' := by
    split <;> simp
  have hpower := allDigits_toDigits d.leading.natAbs
  have hne : Nat.toDigits 10 d.leading.natAbs ≠ [] := Nat.toDigits_ne_nil
  rw [scientific, chars, hchars]
  cases text with
  | nil =>
    exact (opens_digits hdigit hzero htext).append (leads_exponent (by decide) hsign hpower hne)
  | cons second rest =>
    have hone : Opens [c] .whole := opens_digits hdigit hzero (by simp [AllDigits])
    have hpoint : Opens (c :: '.' :: second :: rest) .fraction :=
      hone.append (leads_fraction (by decide) htext (List.cons_ne_nil _ _))
    exact hpoint.append (leads_exponent (by decide) hsign hpower hne)

/-- No digit is written before the first one that counts. -/
def Normal (d : Decimal) : Prop := d.digits ≠ 0 ∨ d = ⟨0, 0⟩

theorem exists_opens_text (h : d.Normal) : ∃ part, part.complete = true ∧ Opens d.text part := by
  have htail : Leads .whole ['.', '0'] .fraction :=
    leads_fraction (by decide) (by simp [AllDigits]) (by simp)
  rcases h with hdigits | rfl
  · unfold text
    split
    · split
      · rename_i hexponent
        exact ⟨.fraction, rfl, opens_fraction hdigits hexponent⟩
      · rename_i hexponent
        exact ⟨.fraction, rfl, (opens_whole hdigits (by omega)).append htail⟩
    · exact ⟨.exponent, rfl, opens_scientific hdigits⟩
  · have hzero : text ⟨0, 0⟩ = ['0'] ++ ['.', '0'] := by decide
    rw [hzero]
    exact ⟨.fraction, rfl, opens_zero.append <|
      leads_fraction (by decide) (by simp [AllDigits]) (by simp)⟩

end Decimal

namespace Double

theorem normal_shortest (tie : Tie) (d : Double) : (d.shortest tie).Normal := by
  cases hzero : d.isZero with
  | true => exact .inr (by rw [shortest, if_pos hzero])
  | false =>
    refine .inl fun hdigits => ?_
    have hvalue : (d.shortest tie).value = 0 := by
      rw [Decimal.value, hdigits, Nat.cast_zero, zero_mul]
    rw [(value_shortest_eq_zero tie d).mp hvalue] at hzero
    cases hzero

end Double

namespace Number

open Scan Numeral

/-- The magnitude of a number, which a sign may stand before. -/
theorem exists_opens_chars (number : Number) :
    ∃ text part, part.complete = true ∧ Opens text part ∧
      (number.chars = text ∨ number.chars = '-' :: text) := by
  cases number with
  | int value =>
    have hdigits : ∃ part, part.complete = true ∧ Opens (Nat.toDigits 10 value.natAbs) part := by
      by_cases hzero : value.natAbs = 0
      · rw [hzero]
        exact ⟨.zero, rfl, opens_zero⟩
      · obtain ⟨c, text, hdigits, hdigit, hc, htext⟩ := exists_toDigits hzero
        rw [hdigits]
        exact ⟨.whole, rfl, opens_digits hdigit hc htext⟩
    obtain ⟨part, hpart, hopens⟩ := hdigits
    refine ⟨_, part, hpart, hopens, ?_⟩
    rw [chars_int]
    split
    · exact .inr rfl
    · exact .inl rfl
  | double value =>
    obtain ⟨part, hpart, hopens⟩ := Decimal.exists_opens_text (value.normal_shortest .toEven)
    refine ⟨_, part, hpart, hopens, ?_⟩
    rw [chars, Double.jsonChars_eq]
    split
    · exact .inr rfl
    · exact .inl rfl

/-- A number is scanned as a leaf that its literal tells. -/
theorem exists_tokens (number : Number) :
    ∃ literal : Literal, ∀ {rest}, Closes rest →
      tokens .between (number.chars ++ rest) = .leaf literal.leaf :: tokens .between rest := by
  obtain ⟨text, part, hpart, hopens, hchars⟩ := number.exists_opens_chars
  have hstarts : ∃ literal, ∀ rest,
      tokens .between (number.chars ++ rest) = tokens (.number part literal) rest := by
    rcases hchars with hchars | hchars
    · rw [hchars]
      exact hopens.starts
    · obtain ⟨literal, hliteral⟩ := hopens.leads { negative := true }
      refine ⟨literal, fun rest => ?_⟩
      rw [hchars, ← hliteral]
      rfl
  obtain ⟨literal, hliteral⟩ := hstarts
  exact ⟨literal, fun hrest => by rw [hliteral, tokens_number hpart literal hrest]⟩

end Number

end RecordQuery
