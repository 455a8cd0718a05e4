import RecordQuery.Proofs.Truth
import RecordQuery.Sql.Condition

/-!
# Conditions on a row

A row gives each column a value or null. How stored values compare with parameters, and which of
them match a pattern, is left to the database. On null every test but the two null tests is unknown,
and a condition takes its truth value from its parts: all of none hold and any of none fails.
-/

namespace RecordQuery.Sql

/-- What a database makes of a stored value that is not null. To differ is not to be equal. -/
structure Database where
  Value : Type
  compare : Value → Comparison → Parameter → Truth
  compare_ne : ∀ stored value, compare stored .ne value = (compare stored .eq value).not
  like : Value → (upperCase : Bool) → (pattern : String) → Truth

def Comparison.ofInts (left right : Int) : Comparison → Bool
  | eq => left == right
  | ne => left != right
  | gt => right < left
  | gte => right ≤ left
  | lt => left < right
  | lte => left ≤ right

/-- Stored integers, which compare with integers only and match no pattern. -/
def Database.integers : Database where
  Value := Int
  compare stored comparison
    | .int value => .ofBool (comparison.ofInts stored value)
    | _ => .unknown
  compare_ne stored value := by
    cases value with
    | int value => exact Truth.ofBool_not (stored == value)
    | _ => rfl
  like _ _ _ := .fails

/-- The value of each column, where null is none. -/
def Database.Row (db : Database) : Type := String → Option db.Value

namespace Database.Row

variable {db : Database} (row : db.Row)

/-- A test of the value in a column. -/
def test (column : String) (check : db.Value → Truth) : Truth :=
  match row column with
  | none => .unknown
  | some value => check value

def isNull (column : String) : Truth := .ofBool (row column).isNone

def compares (column : String) (comparison : Comparison) (value : Parameter) : Truth :=
  row.test column fun stored => db.compare stored comparison value

def matchesPattern (column : String) (upperCase : Bool) (pattern : String) : Truth :=
  row.test column fun stored => db.like stored upperCase pattern

/-- Membership is equality with any of the values. -/
def isAmong (column : String) (values : List Parameter) : Truth :=
  .any (values.map (row.compares column .eq))

theorem compares_ne (column : String) (value : Parameter) :
    row.compares column .ne value = (row.compares column .eq value).not := by
  unfold compares test
  split
  · rfl
  · exact db.compare_ne _ value

theorem isNull_eq_holds (column : String) : row.isNull column = .holds ↔ row column = none := by
  simp [isNull, Truth.ofBool_eq_holds]

end Database.Row

variable {db : Database} (row : db.Row)

def Predicate.truth : Predicate → Truth
  | compare column comparison value => row.compares column comparison value
  | isNull column => row.isNull column
  | isNotNull column => (row.isNull column).not
  | like column upperCase pattern => row.matchesPattern column upperCase pattern
  | isIn column values => row.isAmong column values
  | isNotIn column values => (row.isAmong column values).not

def Connective.join : Connective → List Truth → Truth
  | all, values => .all values
  | any, values => .any values

namespace Condition

mutual

def truth : Condition → Truth
  | .predicate test => test.truth row
  | .group connective negated parts =>
    let joined := connective.join (truths parts)
    if negated then joined.not else joined

def truths : List Condition → List Truth
  | [] => []
  | part :: rest => truth part :: truths rest

end

theorem truths_eq_map (parts : List Condition) : truths row parts = parts.map (truth row) := by
  induction parts with
  | nil => simp [truths]
  | cons part rest ih => simp [truths, ih]

/-- A part of its own means the same as the group that only holds it. -/
@[simp] theorem truth_collapse (condition : Condition) :
    condition.collapse.truth row = condition.truth row := by
  unfold collapse
  split
  · rename_i connective only
    cases connective <;> simp [truth, truths, Connective.join]
  · rfl

theorem truths_collapse (parts : List Condition) :
    truths row (parts.map collapse) = parts.map (truth row) := by
  simp [truths_eq_map, Function.comp_def]

@[simp] theorem truth_all (parts : List Condition) :
    (all parts).truth row = .all (parts.map (truth row)) := by
  simp [all, truth, truths_collapse, Connective.join]

@[simp] theorem truth_any (parts : List Condition) :
    (any parts).truth row = .any (parts.map (truth row)) := by
  simp [any, truth, truths_collapse, Connective.join]

@[simp] theorem truth_conjoin (condition addition : Condition) :
    (condition.conjoin addition).truth row = (condition.truth row).and (addition.truth row) := by
  unfold conjoin
  split
  · simp [truth, truths_eq_map, Connective.join]
  · simp [truth, truths_eq_map, Connective.join]
  · simp

@[simp] theorem truth_negate (condition : Condition) :
    condition.negate.truth row = (condition.truth row).not := by
  cases condition with
  | predicate test => simp [negate, truth, truths, Connective.join]
  | group connective negated parts => cases negated <;> simp [negate, truth]

end Condition

end RecordQuery.Sql
