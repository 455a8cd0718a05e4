import RecordQuery.Proofs.Entries
import RecordQuery.Proofs.Parts
import RecordQuery.Proofs.Row

/-!
# Verdicts on where maps

The verdict of a row on a where map is the truth value of its condition, or nothing if there is no
condition. It is the conjunction of the verdicts on the entries, so it does not depend on their
order, and a refused entry anywhere refuses the whole.
-/

namespace RecordQuery.Sql

variable {db : Database} (row : db.Row)

def verdict : Except Unsupported Condition → Verdict
  | .ok condition => some (condition.truth row)
  | .error _ => none

theorem verdict_eq_some_iff (result : Except Unsupported Condition) (value : Truth) :
    verdict row result = some value ↔
      ∃ condition, result = .ok condition ∧ condition.truth row = value := by
  cases result <;> simp [verdict]

theorem isSome_verdict (result : Except Unsupported Condition) :
    (verdict row result).isSome = result.isOk := by
  cases result <;> rfl

namespace Condition

theorem verdict_all_nil : verdict row (all <$> .ok []) = some .holds := by
  simp [verdict, Functor.map, Except.map]

theorem verdict_all_cons (first : Except Unsupported Condition)
    (rest : Except Unsupported (List Condition)) :
    verdict row (all <$> (do return (← first) :: (← rest))) =
      Verdict.and (verdict row first) (verdict row (all <$> rest)) := by
  cases first <;> cases rest <;>
    simp [verdict, Functor.map, Except.map, Bind.bind, Except.bind, Pure.pure, Except.pure]

theorem verdict_ofWhere (entries : Fields) :
    verdict row (ofWhere entries) =
      .all (entries.map fun entry => verdict row (ofEntry entry.1 entry.2)) := by
  unfold ofWhere
  induction entries with
  | nil => simp only [ofEntries, verdict_all_nil, List.map_nil, Verdict.all_nil]
  | cons entry rest ih =>
    obtain ⟨key, value⟩ := entry
    rw [ofEntries_cons, verdict_all_cons, ih]
    rfl

theorem verdict_ofWhere_perm {entries more : Fields} (h : entries.Perm more) :
    verdict row (ofWhere entries) = verdict row (ofWhere more) := by
  rw [verdict_ofWhere, verdict_ofWhere]
  exact Verdict.all_perm (h.map _)

theorem verdict_ofWhere_cons (key : String) (value : Json) (rest : Fields) :
    verdict row (ofWhere ((key, value) :: rest)) =
      Verdict.and (verdict row (ofEntry key value)) (verdict row (ofWhere rest)) := by
  simp [verdict_ofWhere]

/-- The verdict on a clause, which has to be an object. -/
def clauseVerdict : Json → Verdict
  | .obj entries => verdict row (ofWhere entries)
  | _ => none

theorem verdict_ofItems (items : List Json) :
    (if items.all (·.isObj) then verdict row (all <$> ofItems items) else none) =
      .all (items.map (clauseVerdict row)) := by
  induction items with
  | nil =>
    rw [List.all_nil, if_pos rfl, ofItems, verdict_all_nil, List.map_nil, Verdict.all_nil]
  | cons item rest ih =>
    cases item with
    | obj entries =>
      rw [List.map_cons, Verdict.all_cons, ← ih, clauseVerdict, ofWhere]
      have hcons : ofItems (.obj entries :: rest) =
          (do return (← all <$> ofEntries entries) :: (← ofItems rest)) := by
        simp [ofItems]
      have hall : (Json.obj entries :: rest).all (·.isObj) = rest.all (·.isObj) := rfl
      rw [hcons, hall, verdict_all_cons]
      cases rest.all (·.isObj) <;> simp
    | _ => simp [clauseVerdict, Json.isObj]

/-- The clauses under `AND` hold together. -/
theorem verdict_conjunction (value : Json) :
    verdict row (ofEntry Where.conjunction value) =
      .all (value.toList.map (clauseVerdict row)) := by
  unfold ofEntry
  rw [if_pos rfl]
  cases value with
  | arr items =>
    rw [Json.toList, ← verdict_ofItems]
    unfold ofClauses
    split <;> simp [verdict, Functor.map, Except.map]
  | obj entries =>
    simp only [ofClauses, Json.toList, List.map_cons, List.map_nil, Verdict.all_cons,
      Verdict.all_nil, Verdict.and_holds, clauseVerdict, ofWhere]
    cases ofEntries entries <;>
      simp [verdict, Functor.map, Except.map, Bind.bind, Except.bind, Pure.pure, Except.pure]
  | _ => simp [ofClauses, Json.toList, clauseVerdict, verdict, Functor.map, Except.map]

/-- The verdict on one operator of an object. The case flag asks for nothing by itself. -/
def operatorVerdict (column : String) (ignoreCase : Bool) (operator : String) (operand : Json) :
    Verdict :=
  if operator = Where.caseFlag then some .holds
  else verdict row (ofOperator column ignoreCase operator operand)

theorem verdict_ofOperators (column : String) (ignoreCase : Bool) (operators : Fields) :
    verdict row (all <$> ofOperators column ignoreCase operators) =
      .all (operators.map fun entry => operatorVerdict row column ignoreCase entry.1 entry.2) := by
  induction operators with
  | nil => simp only [ofOperators, verdict_all_nil, List.map_nil, Verdict.all_nil]
  | cons entry rest ih =>
    obtain ⟨operator, operand⟩ := entry
    by_cases hflag : operator = Where.caseFlag
    · simp [ofOperators, operatorVerdict, hflag, ih]
    · rw [ofOperators, if_neg hflag, verdict_all_cons, ih]
      simp [operatorVerdict, hflag]

theorem verdict_ofField_obj (column : String) (operators : Fields) :
    verdict row (ofField column (.obj operators)) = .all (operators.map fun entry =>
      operatorVerdict row column (ignoresCase operators) entry.1 entry.2) := by
  rw [← verdict_ofOperators]
  rfl

/-- Under `equals` a plain value asks for what it asks for by itself. -/
theorem operatorVerdict_equality (column : String) (ignoreCase : Bool) {value : Json}
    (h : value.isObj = false) :
    operatorVerdict row column ignoreCase Where.equality value =
      verdict row (ofField column value) := by
  have hne : Where.equality ≠ Where.caseFlag := by decide
  have hequals (operand : Json) : Predicate.ofOperator? column Where.equality ignoreCase operand =
      Predicate.equals? column operand := rfl
  rw [operatorVerdict, if_neg hne]
  cases value with
  | obj operators => simp [Json.isObj] at h
  | _ =>
    simp only [ofOperator, ofField, hequals]
    split <;> rfl

theorem verdict_ofField_insert_equality (column : String) {operators : Fields}
    (habsent : operators.get? Where.equality = none) {value : Json} (h : value.isObj = false) :
    verdict row (ofField column (.obj (operators.insert Where.equality value))) =
      Verdict.and (verdict row (ofField column value))
        (verdict row (ofField column (.obj operators))) := by
  have hne : Where.equality ≠ Where.caseFlag := by decide
  rw [verdict_ofField_obj, verdict_ofField_obj, ignoresCase_insert_of_ne operators hne,
    Verdict.all_perm ((Entries.insert_perm_cons habsent value).map _), List.map_cons,
    Verdict.all_cons, operatorVerdict_equality row column _ h]

end Condition

end RecordQuery.Sql
