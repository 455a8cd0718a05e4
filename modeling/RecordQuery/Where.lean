import RecordQuery.Json

/-!
# Where maps and their merge

A where map holds a condition for each field and the logical clauses `AND`, `OR` and `NOT`. All its
entries hold together. Merging brings another map in without dropping either side: operator objects
of one field are united key by key, an equality that meets operators stands under `equals`, `AND`
lists are joined, and a second `OR` or `NOT` goes into `AND`.
-/

namespace RecordQuery

namespace Where

def conjunction : String := "AND"

def disjunction : String := "OR"

def negation : String := "NOT"

/-- The operator under which an equality shares a field with other operators. -/
def equality : String := "equals"

/-- The flag that makes the string operators beside it ignore case. -/
def caseFlag : String := "caseInsensitive"

/-- Adds a clause, or each of a list of clauses, to the `AND` list. Another value found there
becomes the first clause of the list. -/
def conjoin (target : Fields) (clause : Json) : Fields :=
  let before := match target.get? conjunction with
    | none => []
    | some present => present.toList
  target.insert conjunction (.arr (before ++ clause.toList))

/-- Brings in a value for a key: `meet` says what becomes of a condition already there. -/
def enter (target : Fields) (key : String) (value : Json) (meet : Json → Json) : Fields :=
  if key = conjunction then conjoin target value
  else match target.get? key with
    | none => target.insert key value
    | some present =>
      if key = disjunction ∨ key = negation then conjoin target (.obj [(key, value)])
      else target.insert key (meet present)

mutual

/-- What a condition becomes when another one for the same field comes in. -/
def meet : (incoming : Json) → (present : Json) → Json
  | .obj incoming, .obj present => .obj (meetAll incoming present)
  | .obj incoming, present =>
    .obj (if Entries.contains incoming equality then incoming
      else Entries.insert incoming equality present)
  | incoming, .obj present => .obj (Entries.insert present equality incoming)
  | incoming, _ => incoming

/-- Brings in the entries of a map one after the other. -/
def meetAll : (incoming : List (String × Json)) → (target : Fields) → Fields
  | [], target => target
  | (key, value) :: rest, target => meetAll rest (enter target key value (meet value))

end

/-- Merges a condition into the one that its field has. -/
def mergeCondition (present incoming : Json) : Json := meet incoming present

/-- Merges a condition or a logical clause into a where map. -/
def mergeField (target : Fields) (key : String) (value : Json) : Fields :=
  enter target key value (meet value)

/-- Merges a where map into another. -/
def merge (target incoming : Fields) : Fields := meetAll incoming target

@[simp] theorem merge_nil (target : Fields) : merge target [] = target := by
  simp [merge, meetAll]

@[simp] theorem merge_cons (target rest : Fields) (key : String) (value : Json) :
    merge target ((key, value) :: rest) = merge (mergeField target key value) rest := by
  simp [merge, meetAll, mergeField]

theorem merge_eq_foldl (target incoming : Fields) :
    merge target incoming =
      incoming.foldl (fun acc entry => mergeField acc entry.1 entry.2) target := by
  induction incoming generalizing target with
  | nil => simp
  | cons entry rest ih =>
    obtain ⟨key, value⟩ := entry
    simpa using ih (mergeField target key value)

@[simp] theorem mergeCondition_obj (present incoming : Fields) :
    mergeCondition (.obj present) (.obj incoming) = .obj (merge present incoming) := by
  simp [mergeCondition, merge, meet]

end Where

end RecordQuery
