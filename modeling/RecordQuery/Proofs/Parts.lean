import RecordQuery.Sql.Condition
import Mathlib.Tactic.SplitIfs

/-!
# The parts of a condition

A where map becomes a condition entry by entry, and an operator object operator by operator. Each
entry that is not refused gives one part, in the order of the entries, and the case flag gives none.
-/

namespace RecordQuery

theorem bind_eq_ok {ε α β : Type} (result : Except ε α) (next : α → Except ε β) (value : β) :
    result >>= next = .ok value ↔ ∃ first, result = .ok first ∧ next first = .ok value := by
  cases result <;> simp [Bind.bind, Except.bind]

theorem map_eq_ok {ε α β : Type} (f : α → β) (result : Except ε α) (value : β) :
    f <$> result = .ok value ↔ ∃ first, result = .ok first ∧ f first = value := by
  cases result <;> simp [Functor.map, Except.map]

theorem pure_eq_ok {ε α : Type} (first value : α) :
    (pure first : Except ε α) = .ok value ↔ first = value := by
  simp [Pure.pure, Except.pure]

theorem exists_of_bind_pure {ε α β : Type} {f : α → β} {result : Except ε α} {value : β}
    (h : (do return f (← result)) = .ok value) : ∃ first, result = .ok first ∧ f first = value := by
  obtain ⟨first, hfirst, hvalue⟩ := (bind_eq_ok _ _ _).mp h
  exact ⟨first, hfirst, Except.ok.inj hvalue⟩

theorem isOk_map {ε α β : Type} (f : α → β) (result : Except ε α) :
    (f <$> result).isOk = result.isOk := by
  cases result <;> rfl

/-- A list of results is there if its head and its tail are. -/
theorem isOk_cons {ε α : Type} (first : Except ε α) (rest : Except ε (List α)) :
    (do return (← first) :: (← rest)).isOk = (first.isOk && rest.isOk) := by
  cases first <;> cases rest <;> rfl

/-- The keys under which clauses stand. -/
def Where.Logical (key : String) : Prop :=
  key = conjunction ∨ key = disjunction ∨ key = negation

instance (key : String) : Decidable (Where.Logical key) :=
  inferInstanceAs (Decidable (_ ∨ _ ∨ _))

namespace Sql.Condition

/-- The part that one entry of a where map becomes. -/
def ofEntry (key : String) (value : Json) : Except Unsupported Condition :=
  if key = Where.conjunction then all <$> ofClauses key value
  else if key = Where.disjunction then any <$> ofClauses key value
  else if key = Where.negation then negateClauses value <$> ofClauses key value
  else ofField key value

theorem ofEntry_of_not_logical {key : String} (h : ¬ Where.Logical key) (value : Json) :
    ofEntry key value = ofField key value := by
  simp only [Where.Logical, not_or] at h
  simp [ofEntry, h]

/-- What the clauses of a logical entry become together. -/
def gather (key : String) (value : Json) (clauses : List Condition) : Condition :=
  if key = Where.conjunction then all clauses
  else if key = Where.disjunction then any clauses
  else negateClauses value clauses

theorem ofEntry_of_logical {key : String} (h : Where.Logical key) (value : Json) :
    ofEntry key value = gather key value <$> ofClauses key value := by
  unfold ofEntry gather
  split_ifs with hand hor hnot
  · rfl
  · rfl
  · rfl
  · simp [Where.Logical, hand, hor, hnot] at h

theorem ofEntries_cons (key : String) (value : Json) (rest : Fields) :
    ofEntries ((key, value) :: rest) =
      (do return (← ofEntry key value) :: (← ofEntries rest)) := by
  rw [ofEntries, ofEntry]
  split_ifs <;> rfl

theorem ofEntries_cons_eq_ok (key : String) (value : Json) (rest : Fields)
    (parts : List Condition) :
    ofEntries ((key, value) :: rest) = .ok parts ↔
      ∃ part more, ofEntry key value = .ok part ∧ ofEntries rest = .ok more ∧
        parts = part :: more := by
  simp only [ofEntries_cons, bind_eq_ok, pure_eq_ok]
  constructor
  · rintro ⟨part, hpart, more, hmore, rfl⟩
    exact ⟨part, more, hpart, hmore, rfl⟩
  · rintro ⟨part, more, hpart, hmore, rfl⟩
    exact ⟨part, hpart, more, hmore, rfl⟩

theorem ofItems_cons_eq_ok (entries : Fields) (rest : List Json) (clauses : List Condition) :
    ofItems (.obj entries :: rest) = .ok clauses ↔
      ∃ parts more, ofEntries entries = .ok parts ∧ ofItems rest = .ok more ∧
        clauses = all parts :: more := by
  simp only [ofItems, bind_eq_ok, pure_eq_ok]
  constructor
  · rintro ⟨parts, hparts, more, hmore, rfl⟩
    exact ⟨parts, more, hparts, hmore, rfl⟩
  · rintro ⟨parts, more, hparts, hmore, rfl⟩
    exact ⟨parts, hparts, more, hmore, rfl⟩

theorem ofOperators_cons_eq_ok (column : String) (ignoreCase : Bool) {operator : String}
    (h : operator ≠ Where.caseFlag) (operand : Json) (rest : Fields) (parts : List Condition) :
    ofOperators column ignoreCase ((operator, operand) :: rest) = .ok parts ↔
      ∃ part more, ofOperator column ignoreCase operator operand = .ok part ∧
        ofOperators column ignoreCase rest = .ok more ∧ parts = part :: more := by
  simp only [ofOperators, h, if_false, bind_eq_ok, pure_eq_ok]
  constructor
  · rintro ⟨part, hpart, more, hmore, rfl⟩
    exact ⟨part, more, hpart, hmore, rfl⟩
  · rintro ⟨part, more, hpart, hmore, rfl⟩
    exact ⟨part, hpart, more, hmore, rfl⟩

theorem ofOperator_plain {column operator : String} {ignoreCase : Bool} {operand : Json}
    {part : Condition} (hplain : operand.isObj = false)
    (h : ofOperator column ignoreCase operator operand = .ok part) :
    ∃ test, Predicate.ofOperator? column operator ignoreCase operand = some test ∧
      part = .predicate test := by
  cases operand with
  | obj inner => simp [Json.isObj] at hplain
  | _ =>
    simp only [ofOperator] at h
    split at h
    · rename_i test htest
      exact ⟨test, htest, (Except.ok.inj h).symm⟩
    · simp at h

theorem ignoresCase_insert_of_ne (operators : Fields) {operator : String}
    (h : operator ≠ Where.caseFlag) (operand : Json) :
    ignoresCase (operators.insert operator operand) = ignoresCase operators := by
  simp [ignoresCase, Entries.get?_insert_of_ne _ _ (Ne.symm h)]

end Sql.Condition

end RecordQuery
