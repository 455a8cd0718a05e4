import RecordQuery.Proofs.Ordered
import RecordQuery.Proofs.Reading

/-!
# Operators that keep their say

Operators that are merged into those a field has go on asking for what they asked for, except below
`not`: two denied objects become one, and each operator that joins a denied object makes it easier
to deny. Whether more operators ask for more or for less depends on the number of denials they stand
below. A text operator asks for something else when the object that it comes into sets the case
flag.
-/

namespace RecordQuery

/-- One value carries another: if the one holds, so does the other. Below a denial they both fail
instead. -/
def Truth.Carries (denied : Bool) (a b : Truth) : Prop :=
  if denied then a = fails → b = fails else a = holds → b = holds

theorem Truth.Carries.refl (denied : Bool) (a : Truth) : Carries denied a a := by
  cases denied <;> simp [Carries]

theorem Truth.Carries.not {denied : Bool} {a b : Truth} (h : Carries (!denied) a b) :
    Carries denied a.not b.not := by
  cases denied <;> simpa [Carries] using h

theorem Truth.carries_unknown (denied : Bool) (b : Truth) : Carries denied unknown b := by
  cases denied <;> simp [Carries]

namespace Where

open Sql

/-- An operator that the case flag bears on. -/
def MatchesText (operator : String) : Prop :=
  operator = "contains" ∨ operator = "startsWith" ∨ operator = "endsWith"

/-- The operators that a condition stands for. -/
def operatorsOf : Json → Fields
  | .obj operators => operators
  | value => [(equality, value)]

/-- Every operator that is given stands among the own ones too. -/
def AddsNothing (given own : Fields) : Prop :=
  ∀ entry ∈ given, entry.1 ≠ caseFlag → own.contains entry.1 = true

-- `denied` tells that the operators stand below an odd number of denials; `alone` and `merged` tell
-- whether they ignore case before they are merged into the given ones and after.
mutual

/-- Each operator keeps its say beside the given ones. -/
def KeepsAll (denied alone merged : Bool) (given : Fields) : List (String × Json) → Prop
  | [] => True
  | (operator, operand) :: rest =>
    KeepsOne denied alone merged operator (given.get? operator) operand ∧
      KeepsAll denied alone merged given rest

/-- A text operator has to be read as before. What a `not` denies goes by one more denial, and if
the number of them is odd then, nothing may join that is not there already. -/
def KeepsOne (denied alone merged : Bool) (operator : String) (present : Option Json) : Json → Prop
  | .obj own =>
    let given := (present.map operatorsOf).getD []
    operator = "not" →
      (denied = false → AddsNothing given own) ∧
        KeepsAll (!denied) (alone || Condition.ignoresCase own)
          (merged || Condition.ignoresCase (merge given own)) given own
  | operand =>
    let given := (present.map operatorsOf).getD []
    (MatchesText operator → alone = merged) ∧
      (operator = "not" → denied = false → AddsNothing given [(equality, operand)])

end

/-- The operators of one field keep their say beside the given ones. -/
def Keeps (given own : Fields) : Prop :=
  KeepsAll false (Condition.ignoresCase own) (Condition.ignoresCase (merge given own)) given own

theorem keepsAll_of_forall (denied alone merged : Bool) (given : Fields) {own : Fields}
    (h : ∀ entry ∈ own, entry.1 ≠ "not" ∧ ¬ MatchesText entry.1) :
    KeepsAll denied alone merged given own := by
  induction own with
  | nil => simp [KeepsAll]
  | cons entry rest ih =>
    obtain ⟨operator, operand⟩ := entry
    obtain ⟨⟨hnot, htext⟩, hrest⟩ := List.forall_mem_cons.mp h
    refine ⟨?_, ih hrest⟩
    cases operand with
    | obj inner => exact fun heq => absurd heq hnot
    | _ => exact ⟨fun hmatches => absurd hmatches htext, fun heq => absurd heq hnot⟩

/-- Bounds, equalities and memberships keep their say beside any operators. -/
theorem keeps_of_forall (given : Fields) {own : Fields}
    (h : ∀ entry ∈ own, entry.1 ≠ "not" ∧ ¬ MatchesText entry.1) : Keeps given own :=
  keepsAll_of_forall _ _ _ given h

/-- The operators that come of merging own ones into given ones. -/
structure Joins (given own merged : Fields) : Prop where
  sorted : merged.Sorted
  get?_of_some : ∀ {operator operand}, ¬ Logical operator → own.get? operator = some operand →
    merged.get? operator = some (mergeInto (given.get? operator) operand)
  get?_of_none : ∀ {operator}, operator ≠ conjunction → own.get? operator = none →
    merged.get? operator = given.get? operator

theorem joins_merge {given own : Fields} (hgiven : given.Sorted) (hown : own.Sorted) :
    Joins given own (merge given own) where
  sorted := sorted_merge hgiven own
  get?_of_some hoperator := get?_merge_of_get?_eq_some given hown hoperator
  get?_of_none hoperator := get?_merge_of_get?_eq_none given hoperator

theorem Joins.get?_eq {given own merged other : Fields} (h : Joins given own merged)
    (hother : Joins given own other) {operator : String} (hoperator : ¬ Logical operator) :
    merged.get? operator = other.get? operator := by
  cases hown : own.get? operator with
  | none =>
    have hne := ne_conjunction_of_not_logical hoperator
    rw [h.get?_of_none hne hown, hother.get?_of_none hne hown]
  | some operand => rw [h.get?_of_some hoperator hown, hother.get?_of_some hoperator hown]

theorem Joins.ignoresCase_eq {given own merged other : Fields} (h : Joins given own merged)
    (hother : Joins given own other) :
    Condition.ignoresCase merged = Condition.ignoresCase other := by
  have hflag : ¬ Logical caseFlag := by decide
  rw [Condition.ignoresCase, Condition.ignoresCase, h.get?_eq hother hflag]

theorem joins_nil {own : Fields} (hown : own.Sorted) : Joins [] own own where
  sorted := hown
  get?_of_some _ hget := by simpa [Entries.get?, mergeInto] using hget
  get?_of_none _ hget := by simpa [Entries.get?] using hget

/-- An equality gives way to one that comes in and joins the operators otherwise. -/
theorem joins_equality {own : Fields} (hown : own.Sorted) {value : Json}
    (hvalue : value.isObj = false)
    (hplain : ∀ operand, own.get? equality = some operand → operand.isObj = false) :
    Joins [(equality, value)] own
      (if own.contains equality then own else own.insert equality value) := by
  split
  · rename_i hcontains
    refine ⟨hown, ?_, ?_⟩
    · intro operator operand hoperator hget
      by_cases heq : operator = equality
      · subst heq
        have hmeet : mergeCondition value operand = operand :=
          mergeCondition_plain hvalue (hplain operand hget)
        simp [Entries.get?, mergeInto, hmeet, hget]
      · simp [Entries.get?, heq, mergeInto, hget]
    · intro operator hoperator hget
      have hne : operator ≠ equality := by
        rintro rfl
        simp [Entries.contains, hget] at hcontains
      simp [Entries.get?, hne, hget]
  · rename_i hcontains
    have habsent : own.get? equality = none := by simpa [Entries.contains] using hcontains
    refine ⟨hown.insert equality value, ?_, ?_⟩
    · intro operator operand hoperator hget
      have hne : operator ≠ equality := by
        rintro rfl
        simp [habsent] at hget
      simp [Entries.get?_insert_of_ne _ _ hne, Entries.get?, hne, mergeInto, hget]
    · intro operator hoperator hget
      by_cases heq : operator = equality
      · subst heq
        simp [Entries.get?]
      · simp [Entries.get?_insert_of_ne _ _ heq, Entries.get?, heq, hget]

/-- A `not` that meets another denies the operators of the two together. -/
theorem exists_mergeInto_obj {present : Option Json} (hpresent : ∀ given ∈ present, given.Ordered)
    {own : Fields} (hown : own.Sorted)
    (hplain : ∀ operand, own.get? equality = some operand → operand.isObj = false) :
    ∃ merged, mergeInto present (.obj own) = .obj merged ∧
      Joins ((present.map operatorsOf).getD []) own merged := by
  cases present with
  | none => exact ⟨own, rfl, joins_nil hown⟩
  | some given =>
    cases given with
    | obj given =>
      exact ⟨merge given own, mergeCondition_obj given own,
        joins_merge (hpresent _ rfl).sorted hown⟩
    | _ =>
      refine ⟨_, ?_, joins_equality hown ?_ hplain⟩
      · simp [mergeInto, mergeCondition, meet]
      · rfl

variable {db : Database} (row : db.Row)

theorem operatorsTruth_eq_holds (column : String) (ignoreCase : Bool) (operators : Fields) :
    operatorsTruth row column ignoreCase operators = .holds ↔
      ∀ entry ∈ operators, entry.1 ≠ caseFlag →
        operatorTruth row column entry.1 ignoreCase entry.2 = .holds := by
  induction operators with
  | nil => simp [operatorsTruth]
  | cons entry rest ih =>
    obtain ⟨operator, operand⟩ := entry
    by_cases hflag : operator = caseFlag
    · simp [operatorsTruth, hflag, ih]
    · simp [operatorsTruth, hflag, ih, Truth.and_eq_holds]

theorem operatorsTruth_eq_fails (column : String) (ignoreCase : Bool) (operators : Fields) :
    operatorsTruth row column ignoreCase operators = .fails ↔
      ∃ entry ∈ operators, entry.1 ≠ caseFlag ∧
        operatorTruth row column entry.1 ignoreCase entry.2 = .fails := by
  induction operators with
  | nil => simp [operatorsTruth]
  | cons entry rest ih =>
    obtain ⟨operator, operand⟩ := entry
    by_cases hflag : operator = caseFlag
    · simp [operatorsTruth, hflag, ih]
    · simp [operatorsTruth, hflag, ih, Truth.and_eq_fails]

/-- No operator has the name of a logical key. -/
theorem operatorTruth_of_logical (column : String) {operator : String} (h : Logical operator)
    (ignoreCase : Bool) (operand : Json) :
    operatorTruth row column operator ignoreCase operand = .unknown := by
  rcases h with rfl | rfl | rfl <;> cases operand <;> rfl

theorem plainOperator_of_not_matchesText (column : String) {operator : String}
    (h : ¬ MatchesText operator) (ignoreCase other : Bool) (operand : Json) :
    plainOperator row column operator ignoreCase operand =
      plainOperator row column operator other operand := by
  simp only [MatchesText, not_or] at h
  unfold plainOperator
  split <;> first | rfl | simp at h

/-- To differ from a plain value is not to be equal to it. -/
theorem different_eq_not (column : String) (operand : Json) :
    different row column operand = (equal row column operand).not := by
  cases operand with
  | null => rfl
  | _ =>
    simp only [different, equal, compared]
    split
    · rw [Database.Row.compares_ne]
    · rfl

theorem operatorTruth_plain (column operator : String) (ignoreCase : Bool) {operand : Json}
    (h : operand.isObj = false) :
    operatorTruth row column operator ignoreCase operand =
      plainOperator row column operator ignoreCase operand := by
  cases operand with
  | obj operators => simp [Json.isObj] at h
  | _ => simp [operatorTruth]

theorem not_logical_of_ofOperator {column operator : String} {ignoreCase : Bool} {operand : Json}
    {part : Condition} (h : Condition.ofOperator column ignoreCase operator operand = .ok part) :
    ¬ Logical operator := by
  rintro (rfl | rfl | rfl) <;> cases operand <;> cases h

theorem carries_operatorsTruth (column : String) {denied alone merged : Bool}
    {given own joined : Fields} (hjoins : Joins given own joined) (hown : own.Sorted)
    (hadds : denied = true → AddsNothing given own)
    (hentries : ∀ entry ∈ own, entry.1 ≠ caseFlag → ¬ Logical entry.1 ∧ Truth.Carries denied
      (operatorTruth row column entry.1 merged (mergeInto (given.get? entry.1) entry.2))
      (operatorTruth row column entry.1 alone entry.2)) :
    Truth.Carries denied (operatorsTruth row column merged joined)
      (operatorsTruth row column alone own) := by
  cases denied with
  | false =>
    intro hholds
    rw [operatorsTruth_eq_holds] at hholds ⊢
    intro entry hentry hflag
    obtain ⟨hlogical, hcarries⟩ := hentries entry hentry hflag
    have hget := hjoins.get?_of_some hlogical (hown.get?_of_mem hentry)
    exact hcarries (hholds _ (Entries.mem_of_get? hget) hflag)
  | true =>
    intro hfails
    rw [operatorsTruth_eq_fails] at hfails ⊢
    obtain ⟨⟨operator, operand⟩, hentry, hflag, hoperand⟩ := hfails
    have hlogical : ¬ Logical operator := by
      intro hlogical
      rw [operatorTruth_of_logical row column hlogical] at hoperand
      simp at hoperand
    have hget := hjoins.sorted.get?_of_mem hentry
    cases hpresent : own.get? operator with
    | none =>
      -- An operator that fails on its own account was given, and then it is among the own ones.
      rw [hjoins.get?_of_none (ne_conjunction_of_not_logical hlogical) hpresent] at hget
      have hcontains := hadds rfl _ (Entries.mem_of_get? hget) hflag
      simp [Entries.contains, hpresent] at hcontains
    | some present =>
      have hmem := Entries.mem_of_get? hpresent
      rw [hjoins.get?_of_some hlogical hpresent] at hget
      obtain rfl := Option.some.inj hget
      exact ⟨_, hmem, hflag, (hentries _ hmem hflag).2 hoperand⟩

/-- The equality that a plain `not` denies is among the operators denied after the merge. -/
theorem carries_equality (column : String) (denied ignoreCase : Bool) {given : Fields}
    (hgiven : given.Sorted) {operand : Json} (hplain : operand.isObj = false)
    (hadds : denied = true → AddsNothing given [(equality, operand)]) :
    Truth.Carries denied (operatorsTruth row column ignoreCase (given.insert equality operand))
      (equal row column operand) := by
  have hequal : operatorTruth row column equality ignoreCase operand = equal row column operand :=
    operatorTruth_plain row column equality ignoreCase hplain
  have hget := Entries.get?_insert_self given equality operand
  have hne : equality ≠ caseFlag := by decide
  rw [← hequal]
  cases denied with
  | false =>
    intro hholds
    rw [operatorsTruth_eq_holds] at hholds
    exact hholds _ (Entries.mem_of_get? hget) hne
  | true =>
    intro hfails
    rw [operatorsTruth_eq_fails] at hfails
    obtain ⟨⟨operator, other⟩, hentry, hflag, hother⟩ := hfails
    have hoperator : operator = equality := by
      rcases Entries.mem_insert hentry with heq | hmem
      · exact congrArg Prod.fst heq
      · simpa [Entries.contains, Entries.get?] using hadds rfl _ hmem hflag
    subst hoperator
    rw [(hgiven.insert equality operand).get?_of_mem hentry] at hget
    obtain rfl := Option.some.inj hget
    exact hother

theorem keepsOne_plain {denied alone merged : Bool} {operator : String} {present : Option Json}
    {operand : Json} (hplain : operand.isObj = false)
    (h : KeepsOne denied alone merged operator present operand) :
    (MatchesText operator → alone = merged) ∧ (operator = "not" → denied = false →
      AddsNothing ((present.map operatorsOf).getD []) [(equality, operand)]) := by
  cases operand with
  | obj operators => simp [Json.isObj] at hplain
  | _ => simpa only [KeepsOne] using h

theorem carries_plain (column : String) {denied alone merged : Bool} {operator : String}
    {present : Option Json} {operand : Json} (hpresent : ∀ given ∈ present, given.Ordered)
    (hplain : operand.isObj = false)
    (hkeeps : KeepsOne denied alone merged operator present operand) :
    Truth.Carries denied (operatorTruth row column operator merged (mergeInto present operand))
      (operatorTruth row column operator alone operand) := by
  obtain ⟨hflag, hadds⟩ := keepsOne_plain hplain hkeeps
  have hsame : mergeInto present operand = operand → Truth.Carries denied
      (operatorTruth row column operator merged (mergeInto present operand))
      (operatorTruth row column operator alone operand) := by
    intro heq
    rw [heq, operatorTruth_plain row column operator merged hplain,
      operatorTruth_plain row column operator alone hplain]
    by_cases htext : MatchesText operator
    · rw [hflag htext]
      exact .refl _ _
    · rw [plainOperator_of_not_matchesText row column htext merged alone]
      exact .refl _ _
  cases present with
  | none => exact hsame rfl
  | some given =>
    cases given with
    | obj given =>
      rw [mergeInto, mergeCondition_obj_plain given hplain, operatorTruth]
      split
      · rename_i hnot
        subst hnot
        have hdiffers : operatorTruth row column "not" alone operand =
            (equal row column operand).not := by
          rw [operatorTruth_plain row column "not" alone hplain, ← different_eq_not]
          rfl
        rw [hdiffers]
        refine .not (carries_equality row column _ _ (hpresent _ rfl).sorted hplain ?_)
        intro hdenied
        exact hadds rfl (by simpa using hdenied)
      · exact Truth.carries_unknown _ _
    | _ => exact hsame (mergeCondition_plain rfl hplain)

theorem exists_ofOperator_of_mem {column : String} {ignoreCase : Bool} {operators : Fields}
    {parts : List Condition} (h : Condition.ofOperators column ignoreCase operators = .ok parts) :
    ∀ entry ∈ operators, entry.1 ≠ caseFlag →
      ∃ part, Condition.ofOperator column ignoreCase entry.1 entry.2 = .ok part := by
  induction operators generalizing parts with
  | nil => simp
  | cons head rest ih =>
    obtain ⟨operator, operand⟩ := head
    intro entry hentry hflag
    by_cases hhead : operator = caseFlag
    · rw [Condition.ofOperators, if_pos hhead] at h
      rcases List.mem_cons.mp hentry with rfl | hrest
      · exact absurd hhead hflag
      · exact ih h entry hrest hflag
    · obtain ⟨part, more, hpart, hmore, -⟩ :=
        (Condition.ofOperators_cons_eq_ok column ignoreCase hhead operand rest parts).mp h
      rcases List.mem_cons.mp hentry with rfl | hrest
      · exact ⟨part, hpart⟩
      · exact ih hmore entry hrest hflag

/-- An operand that is an object has a condition below `not` only. -/
theorem ofOperator_obj_eq_ok {column operator : String} {ignoreCase : Bool} {inner : Fields}
    {part : Condition}
    (h : Condition.ofOperator column ignoreCase operator (.obj inner) = .ok part) :
    operator = "not" ∧ ∃ parts, Condition.ofOperators column
      (ignoreCase || Condition.ignoresCase inner) inner = .ok parts := by
  rw [Condition.ofOperator] at h
  split at h
  · rename_i hnot
    split at h
    · rename_i parts hparts
      exact ⟨hnot, parts, hparts⟩
    · simp at h
  · simp at h

theorem ordered_operatorsOf {present : Option Json} (h : ∀ given ∈ present, given.Ordered) :
    (Json.obj ((present.map operatorsOf).getD [])).Ordered := by
  cases present with
  | none => exact .obj .nil (by simp)
  | some given =>
    have hgiven := h given rfl
    cases given with
    | obj operators => exact hgiven
    | _ => exact .singleton equality hgiven

mutual

/-- Each operator that has a condition and keeps its say carries what it said. The induction is on
the operators and, below `not`, on the operand. -/
theorem carries_operators (column : String) : ∀ (own : List (String × Json))
    {denied alone merged : Bool} {given : Fields}, (Json.obj given).Ordered →
    (∀ entry ∈ own, entry.2.Ordered) → KeepsAll denied alone merged given own →
    (∀ entry ∈ own, entry.1 ≠ caseFlag →
      ∃ part, Condition.ofOperator column alone entry.1 entry.2 = .ok part) →
    ∀ entry ∈ own, entry.1 ≠ caseFlag → Truth.Carries denied
      (operatorTruth row column entry.1 merged (mergeInto (given.get? entry.1) entry.2))
      (operatorTruth row column entry.1 alone entry.2)
  | [], _, _, _, _, _, _, _, _ => by simp
  | (operator, operand) :: rest, _, _, _, given, hgiven, hown, hkeeps, hparts => by
    intro entry hentry hflag
    rw [KeepsAll] at hkeeps
    obtain ⟨hordered, hrest⟩ := List.forall_mem_cons.mp hown
    obtain ⟨hpart, hmore⟩ := List.forall_mem_cons.mp hparts
    rcases List.mem_cons.mp hentry with rfl | hlater
    · obtain ⟨part, hpart⟩ := hpart hflag
      have hpresent : ∀ present ∈ given.get? operator, present.Ordered := fun present hget =>
        hgiven.of_get? hget
      exact carries_operand column operand hpresent hordered hkeeps.1 hpart
    · exact carries_operators column rest hgiven hrest hkeeps.2 hmore entry hlater hflag

theorem carries_operand (column : String) : ∀ (operand : Json) {denied alone merged : Bool}
    {operator : String} {present : Option Json} {part : Condition},
    (∀ given ∈ present, given.Ordered) → operand.Ordered →
    KeepsOne denied alone merged operator present operand →
    Condition.ofOperator column alone operator operand = .ok part → Truth.Carries denied
      (operatorTruth row column operator merged (mergeInto present operand))
      (operatorTruth row column operator alone operand)
  | .obj own, denied, alone, merged, operator, present, part, hpresent, hown, hkeeps, hpart => by
    obtain ⟨rfl, parts, hparts⟩ := ofOperator_obj_eq_ok hpart
    have hoperators := exists_ofOperator_of_mem hparts
    have hplain : ∀ operand, Entries.get? own equality = some operand →
        operand.isObj = false := by
      intro operand hget
      have hflag : equality ≠ caseFlag := by decide
      have hnot : equality ≠ "not" := by decide
      obtain ⟨part, hpart⟩ := hoperators _ (Entries.mem_of_get? hget) hflag
      cases operand with
      | obj inner => exact absurd (ofOperator_obj_eq_ok hpart).1 hnot
      | _ => rfl
    have hgiven := ordered_operatorsOf hpresent
    obtain ⟨joined, hjoined, hjoins⟩ := exists_mergeInto_obj hpresent hown.sorted hplain
    rw [KeepsOne] at hkeeps
    obtain ⟨hadds, hkeeps⟩ := hkeeps rfl
    rw [(joins_merge hgiven.sorted hown.sorted).ignoresCase_eq hjoins] at hkeeps
    rw [hjoined, operatorTruth, operatorTruth, if_pos rfl, if_pos rfl]
    refine .not (carries_operatorsTruth row column hjoins hown.sorted ?_ ?_)
    · intro hdenied
      exact hadds (by simpa using hdenied)
    · intro entry hentry hflag
      obtain ⟨part, hpart⟩ := hoperators entry hentry hflag
      refine ⟨not_logical_of_ofOperator hpart, ?_⟩
      exact carries_operators column own hgiven ((Json.ordered_obj own).mp hown).2 hkeeps
        hoperators entry hentry hflag
  | .null, _, _, _, _, _, _, hpresent, _, hkeeps, _
  | .bool _, _, _, _, _, _, _, hpresent, _, hkeeps, _
  | .num _, _, _, _, _, _, _, hpresent, _, hkeeps, _
  | .str _, _, _, _, _, _, _, hpresent, _, hkeeps, _
  | .arr _, _, _, _, _, _, _, hpresent, _, hkeeps, _ =>
    carries_plain row column hpresent rfl hkeeps

end

/-- A field keeps what its operators ask for when they keep their say. -/
theorem operatorsTruth_of_keeps (column : String) {given own : Fields}
    (hgiven : (Json.obj given).Ordered) (hown : (Json.obj own).Ordered) (hkeeps : Keeps given own)
    {parts : List Condition}
    (hparts : Condition.ofOperators column (Condition.ignoresCase own) own = .ok parts)
    (h : operatorsTruth row column (Condition.ignoresCase (merge given own)) (merge given own) =
      .holds) :
    operatorsTruth row column (Condition.ignoresCase own) own = .holds := by
  have hoperators := exists_ofOperator_of_mem hparts
  have hcarries := carries_operators row column own hgiven ((Json.ordered_obj own).mp hown).2
    hkeeps hoperators
  have hjoins := joins_merge hgiven.sorted hown.sorted
  have hall : Truth.Carries false
      (operatorsTruth row column (Condition.ignoresCase (merge given own)) (merge given own))
      (operatorsTruth row column (Condition.ignoresCase own) own) := by
    refine carries_operatorsTruth row column hjoins hown.sorted (by simp) ?_
    intro entry hentry hflag
    obtain ⟨part, hpart⟩ := hoperators entry hentry hflag
    exact ⟨not_logical_of_ofOperator hpart, hcarries entry hentry hflag⟩
  exact hall h

end Where

end RecordQuery
