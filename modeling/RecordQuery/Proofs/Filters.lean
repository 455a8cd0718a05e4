import RecordQuery.Proofs.Compatible
import RecordQuery.Proofs.Compiled
import RecordQuery.Proofs.Kept

/-!
# Filters of one map

The entries of a filter map are parsed one after the other, and those for one field meet there. A
field that only parsed operators have come into has an object of plain operands, where each text
operator stands beside the case flag. Another operator that comes in joins the others, whichever of
them was first, so a filter map whose entries have different fields or different operators asks for
exactly what its entries ask for one by one.
-/

namespace RecordQuery

open Sql Sql.Condition

theorem Json.exists_eq_obj {value : Json} (h : value.isObj = true) :
    ∃ entries, value = .obj entries := by
  cases value with
  | obj entries => exact ⟨entries, rfl⟩
  | _ => simp [isObj] at h

namespace Where

instance (operator : String) : Decidable (MatchesText operator) :=
  inferInstanceAs (Decidable (_ ∨ _ ∨ _))

/-- Operators as filters leave them: the operands are plain, and a text operator ignores case. -/
structure Flat (operators : Fields) : Prop where
  sorted : operators.Sorted
  plain : ∀ entry ∈ operators, entry.2.isObj = false
  flag : ∀ operand ∈ operators.get? caseFlag, operand = .bool true
  text : ∀ entry ∈ operators, MatchesText entry.1 → ignoresCase operators = true

theorem merge_cons_pair (target : Fields) (entry : String × Json) (rest : Fields) :
    merge target (entry :: rest) = merge (mergeField target entry.1 entry.2) rest :=
  merge_cons target rest entry.1 entry.2

theorem flat_nil : Flat [] where
  sorted := .nil
  plain := by simp
  flag := by simp [Entries.get?]
  text := by simp

/-- The case flag may come in beside any operators. -/
theorem Flat.insert_flag {operators : Fields} (h : Flat operators) :
    Flat (operators.insert caseFlag (.bool true)) where
  sorted := h.sorted.insert _ _
  plain entry hentry := by
    rcases Entries.mem_insert hentry with rfl | hold
    · rfl
    · exact h.plain entry hold
  flag operand hoperand := by simpa [eq_comm] using hoperand
  text _ _ _ := by simp [ignoresCase]

theorem Flat.insert {operators : Fields} (h : Flat operators) {operator : String}
    (hoperator : operator ≠ caseFlag)
    (htext : MatchesText operator → ignoresCase operators = true) {operand : Json}
    (hoperand : operand.isObj = false) : Flat (operators.insert operator operand) where
  sorted := h.sorted.insert _ _
  plain entry hentry := by
    rcases Entries.mem_insert hentry with rfl | hold
    · exact hoperand
    · exact h.plain entry hold
  flag := by
    rw [Entries.get?_insert_of_ne operators operand (Ne.symm hoperator)]
    exact h.flag
  text entry hentry hmatches := by
    rw [ignoresCase_insert_of_ne operators hoperator]
    rcases Entries.mem_insert hentry with rfl | hold
    · exact htext hmatches
    · exact h.text entry hold hmatches

/-- A flag that comes in where only such flags are is found there afterwards. -/
theorem Flat.mergeField_flag {operators : Fields} (h : Flat operators) :
    mergeField operators caseFlag (.bool true) = operators.insert caseFlag (.bool true) := by
  have hflag : ¬ Logical caseFlag := by decide
  cases hpresent : operators.get? caseFlag with
  | none => exact mergeField_of_get?_eq_none (ne_conjunction_of_not_logical hflag) hpresent _
  | some present =>
    obtain rfl := h.flag present hpresent
    rw [mergeField_of_get?_eq_some hflag hpresent]
    rfl

theorem operatorsOf_plain {value : Json} (h : value.isObj = false) :
    operatorsOf value = [(equality, value)] := by
  cases value with
  | obj _ => simp [Json.isObj] at h
  | _ => rfl

variable {db : Database} (row : db.Row)

/-- Only the text operators ask the flag. -/
theorem operatorVerdict_of_not_matchesText (column : String) {operator : String}
    (h : ¬ MatchesText operator) (ignoreCase other : Bool) {operand : Json}
    (hoperand : operand.isObj = false) :
    operatorVerdict row column ignoreCase operator operand =
      operatorVerdict row column other operator operand := by
  have hpredicate : Predicate.ofOperator? column operator ignoreCase operand =
      Predicate.ofOperator? column operator other operand := by
    simp only [MatchesText, not_or] at h
    unfold Predicate.ofOperator?
    split <;> first | rfl | simp at h
  unfold operatorVerdict
  cases operand with
  | obj _ => simp [Json.isObj] at hoperand
  | _ => simp only [ofOperator, hpredicate]

/-- A condition that filters leave asks for what its operators ask for, the text operators ignoring
case. -/
theorem Flat.verdict_ofField {condition : Json} (h : Flat (operatorsOf condition))
    (column : String) :
    verdict row (ofField column condition) = .all ((operatorsOf condition).map fun entry =>
      operatorVerdict row column true entry.1 entry.2) := by
  cases hobj : condition.isObj with
  | false =>
    rw [operatorsOf_plain hobj]
    simp [operatorVerdict_equality row column true hobj]
  | true =>
    obtain ⟨operators, rfl⟩ := Json.exists_eq_obj hobj
    rw [verdict_ofField_obj, operatorsOf]
    congr 1
    refine List.map_congr_left fun entry hentry => ?_
    by_cases hmatches : MatchesText entry.1
    · have hignores : ignoresCase operators = true := h.text entry hentry hmatches
      rw [hignores]
    · exact operatorVerdict_of_not_matchesText row column hmatches _ _ (h.plain entry hentry)

/-- Operators with another one, which has the case flag beside it if it matches text. -/
def enterOperator (given : Fields) (operator : String) (operand : Json) : Fields :=
  (if MatchesText operator then given.insert caseFlag (.bool true) else given).insert
    operator operand

theorem Flat.enterOperator {given : Fields} (h : Flat given) {operator : String}
    (hoperator : operator ≠ caseFlag) {operand : Json} (hoperand : operand.isObj = false) :
    Flat (enterOperator given operator operand) := by
  unfold Where.enterOperator
  split
  · exact h.insert_flag.insert hoperator (fun _ => by simp [ignoresCase]) hoperand
  · rename_i hmatches
    exact h.insert hoperator (fun htext => absurd htext hmatches) hoperand

theorem get?_enterOperator_of_ne (given : Fields) {operator other : String} (operand : Json)
    (hoperator : other ≠ operator) (hflag : other ≠ caseFlag) :
    (enterOperator given operator operand).get? other = given.get? other := by
  rw [enterOperator, Entries.get?_insert_of_ne _ operand hoperator]
  split
  · exact Entries.get?_insert_of_ne given _ hflag
  · rfl

/-- An equality that was there before an operator is the same as one that comes after it. -/
theorem insert_enterOperator_nil {operator : String} (h : equality ≠ operator)
    (value operand : Json) :
    (enterOperator [] operator operand).insert equality value =
      enterOperator [(equality, value)] operator operand := by
  have hnil : Entries.Sorted ([] : Fields) := .nil
  have hflag : equality ≠ caseFlag := by decide
  unfold enterOperator
  split
  · rw [(hnil.insert _ _).insert_comm h.symm, hnil.insert_comm hflag.symm]
    rfl
  · rw [hnil.insert_comm h.symm]
    rfl

theorem caseFlag_lt_of_matchesText {operator : String} (h : MatchesText operator) :
    caseFlag < operator := by
  rcases h with rfl | rfl | rfl <;> decide

theorem enterOperator_nil_of_matchesText {operator : String} (h : MatchesText operator)
    (operand : Json) :
    enterOperator [] operator operand = [(caseFlag, .bool true), (operator, operand)] := by
  have hlt : ∀ entry ∈ [(caseFlag, Json.bool true)], entry.1 < operator := by
    simpa using caseFlag_lt_of_matchesText h
  rw [enterOperator, if_pos h]
  exact Entries.insert_of_forall_lt hlt operand

/-- An operator that is merged by itself enters. -/
theorem merge_enterOperator_nil {given : Fields} (h : Flat given) {operator : String}
    (habsent : given.get? operator = none) (hflag : operator ≠ caseFlag)
    (hconj : operator ≠ conjunction) (operand : Json) :
    merge given (enterOperator [] operator operand) = enterOperator given operator operand := by
  by_cases hmatches : MatchesText operator
  · have hstays : (given.insert caseFlag (.bool true)).get? operator = none := by
      rw [Entries.get?_insert_of_ne given _ hflag, habsent]
    rw [enterOperator_nil_of_matchesText hmatches, merge_cons, merge_cons, merge_nil,
      h.mergeField_flag, mergeField_of_get?_eq_none hconj hstays, enterOperator, if_pos hmatches]
  · rw [enterOperator, enterOperator, if_neg hmatches, if_neg hmatches, Entries.insert, merge_cons,
      merge_nil, mergeField_of_get?_eq_none hconj habsent]

theorem verdict_enterOperator (column : String) {given : Fields} (h : given.Sorted)
    {operator : String} (habsent : given.get? operator = none) (operand : Json) :
    .all ((enterOperator given operator operand).map fun entry =>
        operatorVerdict row column true entry.1 entry.2) =
      Verdict.and (operatorVerdict row column true operator operand)
        (.all (given.map fun entry => operatorVerdict row column true entry.1 entry.2)) := by
  by_cases hmatches : MatchesText operator
  · have hne : operator ≠ caseFlag := (String.ne_of_lt (caseFlag_lt_of_matchesText hmatches)).symm
    have hstays : (given.insert caseFlag (.bool true)).get? operator = none := by
      rw [Entries.get?_insert_of_ne given _ hne, habsent]
    rw [enterOperator, if_pos hmatches,
      verdict_insert_operator row column true (h.insert _ _) (.inl hstays),
      verdict_insert_operator row column true h (.inr rfl)]
    simp [operatorVerdict]
  · rw [enterOperator, if_neg hmatches,
      verdict_insert_operator row column true h (.inl habsent)]

end Where

namespace Operator

open Where

theorem key_injective : Function.Injective key := by
  intro operator other h
  cases operator <;> cases other <;> first | rfl | simp [key, equality] at h

theorem key_ne_caseFlag (operator : Operator) : operator.key ≠ caseFlag := by
  cases operator <;> decide

theorem not_logical_key (operator : Operator) : ¬ Logical operator.key := by
  cases operator <;> decide

theorem textCondition_eq {operator : String} (h : MatchesText operator) (value : Json) :
    Entries.ofList [(operator, value), (caseFlag, .bool true)] =
      enterOperator [] operator value := by
  have hlt := caseFlag_lt_of_matchesText h
  rw [enterOperator_nil_of_matchesText h]
  simp [Entries.ofList, Entries.insertAll, Entries.insert, hlt, String.ne_of_lt hlt]

/-- Equality is the value itself, any other operator stands in an object of its own. -/
theorem exists_condition_eq (operator : Operator) {value : Json} (hplain : value.isObj = false) :
    ∃ operand : Json, operand.isObj = false ∧
      (operator = equals ∧ operator.condition value = operand ∨
        operator ≠ equals ∧
          operator.condition value = .obj (enterOperator [] operator.key operand)) := by
  cases operator with
  | equals => exact ⟨value, hplain, .inl ⟨rfl, rfl⟩⟩
  | contains | startsWith | endsWith =>
    exact ⟨value, hplain,
      .inr ⟨by decide, congrArg Json.obj (textCondition_eq (by decide) value)⟩⟩
  | isIn | notIn => exact ⟨.arr value.toList, rfl, .inr ⟨by decide, rfl⟩⟩
  | _ => exact ⟨value, hplain, .inr ⟨by decide, rfl⟩⟩

/-- A condition that meets a filter for an operator it does not have has that operator beside its
own ones. -/
theorem exists_mergeCondition_eq (operator : Operator) {value : Json}
    (hplain : value.isObj = false) :
    ∃ operand : Json, operand.isObj = false ∧
      operatorsOf (operator.condition value) = enterOperator [] operator.key operand ∧
      ∀ present : Json, Flat (operatorsOf present) →
        (operatorsOf present).get? operator.key = none →
        mergeCondition present (operator.condition value) =
          .obj (enterOperator (operatorsOf present) operator.key operand) := by
  obtain ⟨operand, hoperand, ⟨rfl, heq⟩ | ⟨hne, heq⟩⟩ := operator.exists_condition_eq hplain
  · rw [heq]
    refine ⟨operand, hoperand, operatorsOf_plain hoperand, fun present _ habsent => ?_⟩
    cases present with
    | obj given => exact mergeCondition_obj_plain given hoperand
    | _ => simp [operatorsOf, key, Entries.get?] at habsent
  · refine ⟨operand, hoperand, by rw [heq, operatorsOf], fun present hflat habsent => ?_⟩
    rw [heq]
    cases hpresent : present.isObj with
    | true =>
      obtain ⟨given, rfl⟩ := Json.exists_eq_obj hpresent
      have hconj := ne_conjunction_of_not_logical operator.not_logical_key
      have hmerge := merge_enterOperator_nil hflat habsent operator.key_ne_caseFlag hconj operand
      rw [mergeCondition_obj]
      exact congrArg Json.obj hmerge
    | false =>
      have hkey : equality ≠ operator.key := fun hkey => hne (key_injective hkey.symm)
      have hmissing : (enterOperator [] operator.key operand).get? equality = none :=
        get?_enterOperator_of_ne [] operand hkey (by decide)
      rw [operatorsOf_plain hpresent, ← insert_enterOperator_nil hkey,
        mergeCondition_plain_obj hpresent hmissing]

variable {db : Database} (row : db.Row)

/-- A filter holds beside the condition of its field if that has not its operator yet. -/
theorem verdict_mergeCondition (column : String) (operator : Operator) {value : Json}
    (hplain : value.isObj = false) {present : Json} (hflat : Flat (operatorsOf present))
    (habsent : (operatorsOf present).get? operator.key = none) :
    verdict row (ofField column (mergeCondition present (operator.condition value))) =
      Verdict.and (verdict row (ofField column (operator.condition value)))
        (verdict row (ofField column present)) := by
  obtain ⟨operand, hoperand, hown, hmerge⟩ := operator.exists_mergeCondition_eq hplain
  have hkey := operator.key_ne_caseFlag
  have hcondition : Flat (operatorsOf (operator.condition value)) := by
    rw [hown]
    exact flat_nil.enterOperator hkey hoperand
  have hjoined : Flat (operatorsOf (mergeCondition present (operator.condition value))) := by
    rw [hmerge present hflat habsent]
    exact hflat.enterOperator hkey hoperand
  have hnil : Entries.Sorted ([] : Fields) := .nil
  rw [hjoined.verdict_ofField row, hcondition.verdict_ofField row, hflat.verdict_ofField row, hown,
    hmerge present hflat habsent, operatorsOf,
    verdict_enterOperator row column hflat.sorted habsent,
    verdict_enterOperator row column hnil rfl, List.map_nil, Verdict.all_nil, Verdict.and_holds]

end Operator

namespace Filter

open Where

/-- The operator that a key names. Without a suffix, or with an unknown one, that is equality. -/
def operator (key : String) : Operator :=
  match split? key with
  | some (_, suffix) => (Operator.ofSuffix? suffix).getD .equals
  | none => .equals

/-- The field that a key names. -/
def field (key : String) : String :=
  match split? key with
  | some (field, _) => field
  | none => key

theorem entry_plain (key : String) {value : Json} (hplain : value.isObj = false) :
    entry key value = (field key, (operator key).condition value) := by
  unfold entry field operator
  cases split? key with
  | none => rfl
  | some parts =>
    obtain ⟨field, suffix⟩ := parts
    cases hsuffix : Operator.ofSuffix? suffix with
    | none => simp [hplain, hsuffix, Operator.condition]
    | some operator => simp [hplain, hsuffix]

/-- Entries that target one field have plain values and different operators. Clauses may be any. -/
def Apart (first second : String × Json) : Prop :=
  (entry first.1 first.2).1 = (entry second.1 second.2).1 →
    ¬ Logical (entry first.1 first.2).1 →
      first.2.isObj = false ∧ second.2.isObj = false ∧ operator first.1 ≠ operator second.1

instance : DecidableRel Apart := fun _ _ => inferInstanceAs (Decidable (_ → _ → _))

/-- A map in which nothing is in the way of an entry: what its field has is of plain operands, under
other operators. -/
def Admits (target : Fields) (key : String) (value : Json) : Prop :=
  ¬ Logical (entry key value).1 → ∀ present ∈ target.get? (entry key value).1,
    value.isObj = false ∧ Flat (operatorsOf present) ∧
      (operatorsOf present).get? (operator key).key = none

theorem admits_nil (key : String) (value : Json) : Admits [] key value := by
  intro _ present hpresent
  simp [Entries.get?] at hpresent

/-- What a field has after a plain filter has come in. -/
theorem exists_get?_mergeField_entry {target : Fields} {key : String} {value : Json}
    (h : Admits target key value) (hplain : value.isObj = false) (hfield : ¬ Logical (field key)) :
    ∃ condition, (mergeField target (field key) ((operator key).condition value)).get? (field key) =
        some condition ∧ Flat (operatorsOf condition) ∧
      ∀ other, other ≠ operator key →
        (∀ present ∈ target.get? (field key), (operatorsOf present).get? other.key = none) →
        (operatorsOf condition).get? other.key = none := by
  obtain ⟨operand, hoperand, hown, hmerge⟩ := (operator key).exists_mergeCondition_eq hplain
  have hkey := (operator key).key_ne_caseFlag
  rw [get?_mergeField_self target hfield]
  have hstays (given : Fields) (other : Operator) (hne : other ≠ operator key) :
      (enterOperator given (operator key).key operand).get? other.key = given.get? other.key :=
    get?_enterOperator_of_ne given operand (fun heq => hne (Operator.key_injective heq))
      other.key_ne_caseFlag
  unfold Admits at h
  rw [entry_plain key hplain] at h
  cases hpresent : target.get? (field key) with
  | none =>
    refine ⟨_, rfl, ?_, fun other hne _ => ?_⟩
    · rw [mergeInto, hown]
      exact flat_nil.enterOperator hkey hoperand
    · rw [mergeInto, hown, hstays [] other hne]
      rfl
  | some present =>
    obtain ⟨-, hflat, habsent⟩ := h hfield present hpresent
    refine ⟨_, rfl, ?_, fun other hne hothers => ?_⟩
    · rw [mergeInto, hmerge present hflat habsent]
      exact hflat.enterOperator hkey hoperand
    · rw [mergeInto, hmerge present hflat habsent, operatorsOf, hstays _ other hne]
      exact hothers present rfl

/-- An entry that comes in is not in the way of one that is apart from it. -/
theorem Admits.after {target : Fields} {first later : String × Json}
    (hfirst : Admits target first.1 first.2) (hlater : Admits target later.1 later.2)
    (hapart : Apart first later) :
    Admits (mergeField target (entry first.1 first.2).1 (entry first.1 first.2).2)
      later.1 later.2 := by
  intro hlogical present hpresent
  have hconj := ne_conjunction_of_not_logical hlogical
  by_cases hsame : (entry first.1 first.2).1 = (entry later.1 later.2).1
  · obtain ⟨hplain, hlaterPlain, hoperator⟩ := hapart hsame (hsame ▸ hlogical)
    have hfield : field first.1 = field later.1 := by
      rw [entry_plain _ hplain, entry_plain _ hlaterPlain] at hsame
      exact hsame
    rw [entry_plain _ hplain, entry_plain _ hlaterPlain] at hpresent
    rw [entry_plain _ hlaterPlain] at hlogical
    obtain ⟨condition, hcondition, hflat, hothers⟩ :=
      exists_get?_mergeField_entry hfirst hplain (hfield ▸ hlogical)
    obtain rfl : condition = present := by
      simpa [← hfield, hcondition] using hpresent
    refine ⟨hlaterPlain, hflat, hothers _ (Ne.symm hoperator) fun before hbefore => ?_⟩
    rw [Admits, entry_plain _ hlaterPlain] at hlater
    exact (hlater hlogical before (hfield ▸ hbefore)).2.2
  · rw [get?_mergeField_of_ne target _ (Ne.symm hsame) hconj] at hpresent
    exact hlater hlogical present hpresent

variable {db : Database} (row : db.Row)

/-- An entry that nothing is in the way of holds beside the map. -/
theorem Admits.verdict_after {target : Fields} {key : String} {value : Json}
    (h : Admits target key value) (hsorted : target.Sorted) :
    verdict row (ofWhere (mergeField target (entry key value).1 (entry key value).2)) =
      Verdict.and (verdict row (ofEntry (entry key value).1 (entry key value).2))
        (verdict row (ofWhere target)) := by
  by_cases hlogical : Logical (entry key value).1
  · exact verdict_mergeField_logical row hsorted hlogical _
  · cases hpresent : target.get? (entry key value).1 with
    | none =>
      rw [mergeField_of_get?_eq_none (ne_conjunction_of_not_logical hlogical) hpresent,
        verdict_insert_of_get?_eq_none row hpresent]
    | some present =>
      obtain ⟨hplain, hflat, habsent⟩ := h hlogical present hpresent
      apply verdict_mergeField_field row hsorted hlogical hpresent
      rw [entry_plain key hplain] at hpresent ⊢
      exact Operator.verdict_mergeCondition row _ _ hplain hflat habsent

/-- The verdict on an entry that is parsed alone. -/
theorem verdict_parse_singleton (key : String) (value : Json) :
    verdict row (ofWhere (parse [(key, value)])) =
      verdict row (ofEntry (entry key value).1 (entry key value).2) := by
  have hparse : parse [(key, value)] =
      Where.mergeField [] (entry key value).1 (entry key value).2 := by
    simp only [parse, List.map_cons, List.map_nil]
    rw [merge_cons_pair, merge_nil]
  have hnothing : verdict row (ofWhere []) = some .holds := verdict_all_nil row
  rw [hparse, (admits_nil key value).verdict_after row .nil, hnothing, Verdict.and_holds]

/-- The induction is on the entries: each one that comes in leaves the later ones admitted. -/
theorem verdict_merge_entries {target : Fields} (hsorted : target.Sorted) {filters : Fields}
    (hadmits : ∀ later ∈ filters, Admits target later.1 later.2)
    (hapart : filters.Pairwise Apart) :
    verdict row (ofWhere (merge target (filters.map fun filter => entry filter.1 filter.2))) =
      Verdict.and (.all (filters.map fun later => verdict row (ofWhere (parse [later]))))
        (verdict row (ofWhere target)) := by
  induction filters generalizing target with
  | nil => simp
  | cons first rest ih =>
    obtain ⟨hfirst, hrest⟩ := List.forall_mem_cons.mp hadmits
    obtain ⟨hfirstApart, hrestApart⟩ := List.pairwise_cons.mp hapart
    have hentered := sorted_mergeField hsorted (entry first.1 first.2).1 (entry first.1 first.2).2
    have hlater : ∀ later ∈ rest,
        Admits (mergeField target (entry first.1 first.2).1 (entry first.1 first.2).2)
          later.1 later.2 :=
      fun later hmem => hfirst.after (hrest later hmem) (hfirstApart later hmem)
    have hrun := ih hentered hlater hrestApart
    rw [hfirst.verdict_after row hsorted] at hrun
    simp only [List.map_cons, Verdict.all_cons]
    rw [merge_cons_pair, hrun, verdict_parse_singleton, Verdict.and_left_comm, Verdict.and_assoc]

/-- Entries that are apart hold together. -/
theorem verdict_parse {filters : Fields} (h : filters.Pairwise Apart) :
    verdict row (ofWhere (parse filters)) =
      .all (filters.map fun filter => verdict row (ofWhere (parse [filter]))) := by
  have hadmits : ∀ later ∈ filters, Admits [] later.1 later.2 :=
    fun later _ => admits_nil later.1 later.2
  have hnothing : verdict row (ofWhere []) = some .holds := verdict_all_nil row
  have hrun := verdict_merge_entries row .nil hadmits h
  rw [hnothing, Verdict.and_holds] at hrun
  exact hrun

theorem verdict_mapM (filters : Fields) :
    verdict row (all <$> filters.mapM fun filter => ofWhere (parse [filter])) =
      .all (filters.map fun filter => verdict row (ofWhere (parse [filter]))) := by
  induction filters with
  | nil => exact verdict_all_nil row
  | cons first rest ih => rw [List.mapM_cons, verdict_all_cons, ih, List.map_cons, Verdict.all_cons]

/-- A filter map in which no two entries ask one field for the same operator, or for one beside an
object, has a condition exactly when each of its entries has one by itself, and asks for what they
ask for together. -/
theorem apart_entries_conjoin {filters : Fields} (h : filters.Pairwise Apart) :
    ((ofWhere (parse filters)).isOk = true ↔
      ∀ filter ∈ filters, (ofWhere (parse [filter])).isOk = true) ∧
    ∀ condition, ofWhere (parse filters) = .ok condition →
      ∃ parts, filters.mapM (fun filter => ofWhere (parse [filter])) = .ok parts ∧
        ∀ (db : Database) (row : db.Row),
          condition.truth row = .all (parts.map (Condition.truth row)) := by
  -- Whether there is a condition does not depend on the row, so any row will do.
  let stored : Database.integers.Row := fun _ => none
  constructor
  · rw [← isSome_verdict stored, verdict_parse stored h, Verdict.isSome_all,
      List.forall_mem_map]
    simp only [isSome_verdict]
  · intro condition hcondition
    have hverdict {db : Database} (row : db.Row) := (verdict_parse row h).trans
      (verdict_mapM row filters).symm
    cases hparts : filters.mapM fun filter => ofWhere (parse [filter]) with
    | error refused =>
      have hstored := hverdict stored
      rw [hcondition, hparts] at hstored
      simp [verdict, Functor.map, Except.map] at hstored
    | ok parts =>
      refine ⟨parts, rfl, fun db row => ?_⟩
      have hrow := hverdict row
      rw [hcondition, hparts] at hrow
      simpa [verdict, Functor.map, Except.map] using hrow

/-- Bounds and an inequality meet an equality, text operators meet others in either order, and
objects and clauses stand beside them. -/
theorem apart_entries_conjoin_beside_objects :
    let filters : Fields := [("AND", .obj [("rank", .num (.int 2))]),
      ("OR", .arr [.obj [("owner", .null)], .obj [("owner", .num (.int 1))]]),
      ("age", .num (.int 30)), ("age:gt", .num (.int 18)), ("age:ne", .num (.int 40)),
      ("city", .obj [("not", .obj [("in", .arr [.str "Oslo"])])]),
      ("name:contains", .str "b"), ("name:in", .str "Bob"), ("name:starts", .str "B"),
      ("owner:id", .obj [("lt", .num (.int 9))]), ("rank:unknown", .num (.int 2))]
    ((ofWhere (parse filters)).isOk = true ↔
        ∀ filter ∈ filters, (ofWhere (parse [filter])).isOk = true) ∧
      (ofWhere (parse filters)).isOk = true ∧
      ∀ condition, ofWhere (parse filters) = .ok condition →
        ∃ parts, filters.mapM (fun filter => ofWhere (parse [filter])) = .ok parts ∧
          ∀ (db : Database) (row : db.Row),
            condition.truth row = .all (parts.map (Condition.truth row)) := by
  intro filters
  have hapart : filters.Pairwise Apart := by decide +kernel
  obtain ⟨hok, htruth⟩ := apart_entries_conjoin hapart
  exact ⟨hok, by decide +kernel, htruth⟩

end Filter

end RecordQuery
