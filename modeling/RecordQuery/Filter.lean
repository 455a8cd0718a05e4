import RecordQuery.Where

/-!
# Filter maps

A filter map is the flat form of a where map: a key is a field, or a field and an operator suffix
after the first colon. A suffixed key splits only when its value is not an object, so that a where
map written by hand passes through. An unknown suffix means equality.
-/

namespace RecordQuery

inductive Operator where
  | equals | not | gt | gte | lt | lte
  | contains | startsWith | endsWith
  | isIn | notIn
  deriving DecidableEq, Repr, Inhabited

namespace Operator

def ofSuffix? (suffix : String) : Option Operator :=
  match suffix with
  | "eq" => some equals
  | "ne" | "not" => some not
  | "gt" => some gt
  | "gte" => some gte
  | "lt" => some lt
  | "lte" => some lte
  | "contains" => some contains
  | "startsWith" | "starts" => some startsWith
  | "endsWith" | "ends" => some endsWith
  | "in" => some isIn
  | "notIn" => some notIn
  | _ => none

/-- The key of the operator in a condition object. -/
def key : Operator → String
  | equals => Where.equality
  | not => "not"
  | gt => "gt"
  | gte => "gte"
  | lt => "lt"
  | lte => "lte"
  | contains => "contains"
  | startsWith => "startsWith"
  | endsWith => "endsWith"
  | isIn => "in"
  | notIn => "notIn"

/-- The condition that a field takes: equality is the bare value, string operators ignore case, and
membership always has a list. -/
def condition (operator : Operator) (value : Json) : Json :=
  match operator with
  | equals => value
  | not | gt | gte | lt | lte => .obj [(operator.key, value)]
  | contains | startsWith | endsWith =>
    .obj (Entries.ofList [(operator.key, value), (Where.caseFlag, true)])
  | isIn | notIn => .obj [(operator.key, .arr value.toList)]

end Operator

namespace Filter

/-- The field and the suffix of a key that has a colon. -/
def split? (key : String) : Option (String × String) :=
  match key.toList.span (· ≠ ':') with
  | (field, _ :: suffix) => some (String.ofList field, String.ofList suffix)
  | (_, []) => none

/-- The key and the condition that an entry of a filter map stands for. -/
def entry (key : String) (value : Json) : String × Json :=
  match split? key with
  | some (field, suffix) =>
    if value.isObj then (key, value)
    else match Operator.ofSuffix? suffix with
      | some operator => (field, operator.condition value)
      | none => (field, value)
  | none => (key, value)

/-- Whether an entry has a suffix that is read as equality because no operator has it. -/
def hasUnknownSuffix (key : String) (value : Json) : Bool :=
  match split? key with
  | some (_, suffix) => !value.isObj && (Operator.ofSuffix? suffix).isNone
  | none => false

/-- The where map that a filter map stands for. -/
def parse (filters : Fields) : Fields :=
  Where.merge [] (filters.map fun (key, value) => entry key value)

/-- The keys with an unknown suffix. -/
def unknownKeys (filters : Fields) : List String :=
  (filters.filter fun (key, value) => hasUnknownSuffix key value).map (·.1)

end Filter

end RecordQuery
