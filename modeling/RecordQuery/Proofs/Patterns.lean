import Mathlib.Data.List.Infix
import RecordQuery.Sql.Condition

/-!
# What a pattern matches

In a pattern a percent sign stands for any text and an underscore for any one character, and a
backslash makes the character after it stand for itself. A term whose marks are escaped matches
nothing but itself, so a pattern matches the texts that have the term in its place. Upper case
leaves the marks alone and makes no new ones, so the upper case of a pattern is the pattern of the
upper case.
-/

namespace RecordQuery

/-- The characters that do not stand for themselves in a pattern. -/
def IsMark (c : Char) : Prop := c = '\\' ∨ c = '%' ∨ c = '_'

instance (c : Char) : Decidable (IsMark c) := inferInstanceAs (Decidable (_ ∨ _ ∨ _))

/-- Puts a backslash before one character wherever it stands. -/
def marked (mark : Char) (text : List Char) : List Char :=
  text.flatMap fun c => if c = mark then ['\\', c] else [c]

theorem escapeLike_cons (c : Char) (rest : List Char) :
    escapeLike (c :: rest) = (if IsMark c then ['\\', c] else [c]) ++ escapeLike rest :=
  rfl

theorem escapeLike_append (term rest : List Char) :
    escapeLike (term ++ rest) = escapeLike term ++ escapeLike rest := by
  simp [escapeLike]

/-- The marks may be escaped one after the other, the backslash being the first. -/
theorem escapeLike_eq_marked (term : List Char) :
    escapeLike term = marked '_' (marked '%' (marked '\\' term)) := by
  induction term with
  | nil => rfl
  | cons c rest ih =>
    have happend : ∀ mark (first more : List Char),
        marked mark (first ++ more) = marked mark first ++ marked mark more := by
      simp [marked]
    rw [← List.singleton_append, escapeLike_append, happend, happend, happend, ih]
    congr 1
    by_cases hc : IsMark c
    · rcases hc with rfl | rfl | rfl <;> decide
    · simp only [IsMark, not_or] at hc
      simp [escapeLike, marked, hc]

theorem escapeLike_of_forall {term : List Char} (h : ∀ c ∈ term, ¬ IsMark c) :
    escapeLike term = term := by
  induction term with
  | nil => rfl
  | cons c rest ih =>
    obtain ⟨hc, hrest⟩ := List.forall_mem_cons.mp h
    rw [escapeLike_cons, if_neg hc, ih hrest, List.singleton_append]

namespace Text

theorem eq_toNat_of_ofNat_eq {n : Nat} {c : Char} (hc : c.toNat ≠ 0) (h : Char.ofNat n = c) :
    n = c.toNat := by
  subst h
  by_cases hn : n.isValidChar
  · have hvalid : Char.ofNat n = Char.ofNatAux n hn := dif_pos hn
    rw [hvalid]
    rfl
  · have hinvalid : (Char.ofNat n).toNat = 0 := congrArg Char.toNat (dif_neg hn)
    exact absurd hinvalid hc

theorem not_isMark_ofNat {n : Nat} (h : n ≠ 92 ∧ n ≠ 37 ∧ n ≠ 95) : ¬ IsMark (Char.ofNat n) := by
  rintro (hn | hn | hn)
  · exact h.1 (eq_toNat_of_ofNat_eq (by decide) hn)
  · exact h.2.1 (eq_toNat_of_ofNat_eq (by decide) hn)
  · exact h.2.2 (eq_toNat_of_ofNat_eq (by decide) hn)

theorem upperChar_of_isMark {c : Char} (h : IsMark c) : upperChar c = [c] := by
  rcases h with rfl | rfl | rfl <;> decide

/-- The characters of each run go past the marks or between them. -/
theorem caseRuns_avoid_marks : ∀ run ∈ caseRuns, 95 < run.first + run.offset ∨
    37 < run.first + run.offset ∧ run.last + run.offset < 92 := by
  decide +kernel

theorem caseSequences_avoid_marks : ∀ entry ∈ caseSequences, ∀ code ∈ entry.2,
    code ≠ 92 ∧ code ≠ 37 ∧ code ≠ 95 := by
  decide +kernel

theorem not_isMark_of_mem_upperChar {c d : Char} (h : ¬ IsMark c) (hd : d ∈ upperChar c) :
    ¬ IsMark d := by
  unfold upperChar at hd
  split at hd
  · rename_i codes hcodes
    obtain ⟨code, hcode, rfl⟩ := List.mem_map.mp hd
    obtain ⟨before, after, hentries, -⟩ := List.lookup_eq_some_iff.mp hcodes
    have hentry : (c.toNat, codes) ∈ caseSequences := by simp [hentries]
    exact not_isMark_ofNat (caseSequences_avoid_marks _ hentry code hcode)
  · split at hd
    · rename_i run hrun
      obtain rfl := List.mem_singleton.mp hd
      have hcovers := List.find?_some hrun
      have hbounds := caseRuns_avoid_marks run (List.mem_of_find?_eq_some hrun)
      simp only [CaseRun.covers, Bool.and_eq_true, decide_eq_true_eq] at hcovers
      exact not_isMark_ofNat (by omega)
    · obtain rfl := List.mem_singleton.mp hd
      exact h

theorem upper_append (text more : List Char) : upper (text ++ more) = upper text ++ upper more := by
  simp [upper]

theorem upper_cons_of_isMark {c : Char} (h : IsMark c) (rest : List Char) :
    upper (c :: rest) = c :: upper rest := by
  simp [upper, upperChar_of_isMark h]

/-- Upper case may be taken before the marks are escaped or after. -/
theorem upper_escapeLike (term : List Char) :
    upper (escapeLike term) = escapeLike (upper term) := by
  induction term with
  | nil => rfl
  | cons c rest ih =>
    by_cases hc : IsMark c
    · have hslash : IsMark '\\' := by decide
      rw [upper_cons_of_isMark hc, escapeLike_cons, escapeLike_cons, if_pos hc, ← ih]
      exact (upper_cons_of_isMark hslash _).trans (congrArg _ (upper_cons_of_isMark hc _))
    · have hupper : upper (c :: rest) = upperChar c ++ upper rest := rfl
      rw [escapeLike_cons, if_neg hc, hupper, escapeLike_append, ← ih,
        escapeLike_of_forall fun d hd => not_isMark_of_mem_upperChar hc hd]
      rfl

end Text

namespace Sql

/-- Whether a text fits a pattern. A backslash with nothing after it fits no text. -/
def fits : (pattern text : List Char) → Bool
  | [], text => text.isEmpty
  | ['\\'], _ => false
  | '\\' :: c :: rest, text => text.head? = some c && fits rest text.tail
  | '%' :: rest, text => text.tails.any (fits rest)
  | '_' :: rest, text => !text.isEmpty && fits rest text.tail
  | c :: rest, text => text.head? = some c && fits rest text.tail

theorem fits_percent_cons (rest text : List Char) :
    fits ('%' :: rest) text = true ↔ ∃ before after, text = before ++ after ∧ fits rest after := by
  simp only [fits, List.any_eq_true, List.mem_tails]
  constructor
  · rintro ⟨after, ⟨before, rfl⟩, hfits⟩
    exact ⟨before, after, rfl, hfits⟩
  · rintro ⟨before, after, rfl, hfits⟩
    exact ⟨after, ⟨before, rfl⟩, hfits⟩

theorem fits_percent (text : List Char) : fits ['%'] text = true :=
  (fits_percent_cons [] text).mpr ⟨text, [], by simp, rfl⟩

/-- A character that is escaped where it has to be is the next one of the text. -/
theorem fits_escaped_cons (c : Char) (rest text : List Char) :
    fits ((if IsMark c then ['\\', c] else [c]) ++ rest) text = true ↔
      ∃ more, text = c :: more ∧ fits rest more = true := by
  have hnext : fits ((if IsMark c then ['\\', c] else [c]) ++ rest) text =
      (text.head? = some c && fits rest text.tail) := by
    split
    · rw [List.cons_append, List.singleton_append, fits]
    · rename_i hc
      simp only [IsMark, not_or] at hc
      rw [List.singleton_append, fits] <;> simp_all
  rw [hnext]
  cases text with
  | nil => simp
  | cons d more => simp

theorem fits_escapeLike_append (term rest text : List Char) :
    fits (escapeLike term ++ rest) text = true ↔ ∃ more, text = term ++ more ∧ fits rest more := by
  induction term generalizing text with
  | nil => simp [escapeLike]
  | cons c term ih =>
    rw [escapeLike_cons, List.append_assoc, fits_escaped_cons]
    constructor
    · rintro ⟨tail, rfl, htail⟩
      obtain ⟨more, rfl, hmore⟩ := (ih tail).mp htail
      exact ⟨more, rfl, hmore⟩
    · rintro ⟨more, rfl, hmore⟩
      exact ⟨term ++ more, rfl, (ih _).mpr ⟨more, rfl, hmore⟩⟩

theorem fits_escapeLike (term text : List Char) : fits (escapeLike term) text ↔ text = term := by
  have happend := fits_escapeLike_append term [] text
  rw [List.append_nil] at happend
  rw [happend]
  simp [fits]

namespace Anchor

/-- The operator that asks for a term in this place. -/
def operator : Anchor → String
  | anywhere => "contains"
  | atStart => "startsWith"
  | atEnd => "endsWith"

/-- The term stands in this place of the text. -/
def Places (anchor : Anchor) (term text : List Char) : Prop :=
  match anchor with
  | anywhere => term <:+: text
  | atStart => term <+: text
  | atEnd => term <:+ text

theorem fits_pattern (anchor : Anchor) (term text : List Char) :
    fits (anchor.pattern term) text = true ↔ anchor.Places term text := by
  cases anchor with
  | anywhere =>
    rw [pattern, List.cons_append, fits_percent_cons]
    constructor
    · rintro ⟨before, tail, rfl, htail⟩
      obtain ⟨after, rfl, -⟩ := (fits_escapeLike_append term ['%'] tail).mp htail
      exact ⟨before, after, List.append_assoc ..⟩
    · rintro ⟨before, after, rfl⟩
      refine ⟨before, term ++ after, List.append_assoc .., ?_⟩
      exact (fits_escapeLike_append term ['%'] _).mpr ⟨after, rfl, fits_percent after⟩
  | atStart =>
    rw [pattern, fits_escapeLike_append]
    constructor
    · rintro ⟨after, rfl, -⟩
      exact List.prefix_append term after
    · rintro ⟨after, rfl⟩
      exact ⟨after, rfl, fits_percent after⟩
  | atEnd =>
    rw [pattern, fits_percent_cons]
    constructor
    · rintro ⟨before, tail, rfl, htail⟩
      obtain rfl := (fits_escapeLike term tail).mp htail
      exact List.suffix_append before tail
    · rintro ⟨before, rfl⟩
      exact ⟨before, term, rfl, (fits_escapeLike term term).mpr rfl⟩

theorem upper_pattern (anchor : Anchor) (term : List Char) :
    Text.upper (anchor.pattern term) = anchor.pattern (Text.upper term) := by
  have hpercent : ∀ rest, Text.upper ('%' :: rest) = '%' :: Text.upper rest :=
    Text.upper_cons_of_isMark (by decide)
  cases anchor with
  | anywhere =>
    simp only [pattern, List.cons_append, hpercent, Text.upper_append, Text.upper_escapeLike]
    rfl
  | atStart =>
    simp only [pattern, Text.upper_append, Text.upper_escapeLike, hpercent]
    rfl
  | atEnd => simp only [pattern, hpercent, Text.upper_escapeLike]

end Anchor

/-- The pattern of a text operator finds its term and nothing else: a text fits it if and only if
the term stands in its place there. With the case ignored, upper case is compared with upper
case. The marks of a term may be escaped one after the other, from the backslash on. -/
theorem Predicate.text_operators_find (column term : String) (anchor : Anchor) :
    (∃ pattern, ofOperator? column anchor.operator false (.str term) =
        some (.like column false pattern) ∧
      ∀ text : String, fits pattern.toList text.toList = true ↔
        anchor.Places term.toList text.toList) ∧
    (∃ pattern, ofOperator? column anchor.operator true (.str term) =
        some (.like column true pattern) ∧
      ∀ text : String, fits pattern.toList (Text.upper text.toList) = true ↔
        anchor.Places (Text.upper term.toList) (Text.upper text.toList)) ∧
    escapeLike term.toList = marked '_' (marked '%' (marked '\\' term.toList)) := by
  refine ⟨⟨String.ofList (anchor.pattern term.toList), ?_, fun text => ?_⟩,
    ⟨String.ofList (Text.upper (anchor.pattern term.toList)), ?_, fun text => ?_⟩,
    escapeLike_eq_marked term.toList⟩
  · cases anchor <;> rfl
  · rw [String.toList_ofList, anchor.fits_pattern]
  · cases anchor <;> rfl
  · rw [String.toList_ofList, anchor.upper_pattern, anchor.fits_pattern]

end Sql

end RecordQuery
