import RecordQuery.Where
import RecordQuery.Search
import RecordQuery.Text.Uppercase

/-!
# Conditions on one table

A where map becomes a tree of predicates on columns. What has no meaning for a single row of one
table, such as a condition on related records, an unknown operator or an operand of the wrong type,
is refused with the field and the operator where it stands, since leaving it out would let more rows
through.
-/

namespace RecordQuery.Sql

/-- A value that is handed to the database beside the text of a statement. -/
inductive Parameter where
  | bool (value : Bool)
  | int (value : Int)
  | double (value : Double)
  | text (value : String)
  /-- A number of rows. -/
  | count (value : Nat)
  /-- A side of a comparison that holds always or never. -/
  | constant (value : Nat)
  deriving DecidableEq, Repr, Inhabited

namespace Parameter

/-- The scalar that a column is compared with; null is none. -/
def ofJson? : Json → Option Parameter
  | .bool value => some (.bool value)
  | .num (.int value) => some (.int value)
  | .num (.double value) => some (.double value)
  | .str value => some (.text value)
  | _ => none

/-- The operands of a membership test; a scalar is a list of one. -/
def listOfJson? (value : Json) : Option (List Parameter) := value.toList.mapM ofJson?

end Parameter

inductive Comparison where
  | eq | ne | gt | gte | lt | lte
  deriving DecidableEq, Repr

inductive Predicate where
  | compare (column : String) (comparison : Comparison) (value : Parameter)
  | isNull (column : String)
  | isNotNull (column : String)
  /-- A pattern match, of the column as it is or of its upper case. -/
  | like (column : String) (upperCase : Bool) (pattern : String)
  | isIn (column : String) (values : List Parameter)
  | isNotIn (column : String) (values : List Parameter)
  deriving DecidableEq, Repr

inductive Connective where
  | all
  | any
  deriving DecidableEq, Repr

/-- All or any of some parts, possibly negated. Without parts, all hold and none of any does. -/
inductive Condition where
  | predicate (test : Predicate)
  | group (connective : Connective) (negated : Bool) (parts : List Condition)
  deriving Repr

/-- A condition that has no form on a single table, by its field and operator. -/
structure Unsupported where
  field : String
  operator : Option String := none
  deriving DecidableEq, Repr, Inhabited

def Unsupported.message (unsupported : Unsupported) : String :=
  match unsupported.operator with
  | some operator =>
    "Cannot render `" ++ operator ++ "` on `" ++ unsupported.field ++ "` as SQL"
  | none => "Cannot render condition on `" ++ unsupported.field ++ "` as SQL"

/-- Where a term stands in the text that a pattern matches. -/
inductive Anchor where
  | anywhere
  | atStart
  | atEnd
  deriving DecidableEq, Repr

/-- The pattern that matches the texts with the term in its place. -/
def Anchor.pattern (anchor : Anchor) (term : List Char) : List Char :=
  match anchor with
  | anywhere => '%' :: escapeLike term ++ ['%']
  | atStart => escapeLike term ++ ['%']
  | atEnd => '%' :: escapeLike term

namespace Predicate

def equals? (column : String) : Json → Option Predicate
  | .null => some (isNull column)
  | value => (Parameter.ofJson? value).map (compare column .eq)

def differs? (column : String) : Json → Option Predicate
  | .null => some (isNotNull column)
  | value => (Parameter.ofJson? value).map (compare column .ne)

def compares? (column : String) (comparison : Comparison) (operand : Json) : Option Predicate :=
  (Parameter.ofJson? operand).map (compare column comparison)

/-- A match that ignores case compares upper case with upper case. -/
def like? (column : String) (anchor : Anchor) (ignoreCase : Bool) : Json → Option Predicate
  | .str term =>
    let pattern := anchor.pattern term.toList
    some (like column ignoreCase
      (String.ofList (if ignoreCase then Text.upper pattern else pattern)))
  | _ => none

/-- The predicate of an operator that takes a plain operand. -/
def ofOperator? (column operator : String) (ignoreCase : Bool) (operand : Json) :
    Option Predicate :=
  match operator with
  | "equals" => equals? column operand
  | "not" => differs? column operand
  | "gt" => compares? column .gt operand
  | "gte" => compares? column .gte operand
  | "lt" => compares? column .lt operand
  | "lte" => compares? column .lte operand
  | "contains" => like? column .anywhere ignoreCase operand
  | "startsWith" => like? column .atStart ignoreCase operand
  | "endsWith" => like? column .atEnd ignoreCase operand
  | "in" => (Parameter.listOfJson? operand).map (isIn column)
  | "notIn" => (Parameter.listOfJson? operand).map (isNotIn column)
  | _ => none

end Predicate

namespace Condition

/-- A condition as a part of another: a group of one part that is not negated is that part. -/
def collapse : Condition → Condition
  | .group _ false [only] => only
  | condition => condition

def all (parts : List Condition) : Condition := .group .all false (parts.map collapse)

def any (parts : List Condition) : Condition := .group .any false (parts.map collapse)

/-- Two conditions as one. A group that asks for all of its parts takes in the other condition, or
the parts of the other if that asks for all of them too. -/
def conjoin : Condition → Condition → Condition
  | .group .all false parts, .group .all false more => .group .all false (parts ++ more)
  | .group .all false parts, addition => .group .all false (parts ++ [collapse addition])
  | condition, addition => all [condition, addition]

def negate : Condition → Condition
  | .group connective negated parts => .group connective (!negated) parts
  | condition => .group .all true [condition]

/-- The negation of each clause of a list, or of a single object as a whole. -/
def negateClauses (value : Json) (clauses : List Condition) : Condition :=
  match value with
  | .arr _ => all (clauses.map negate)
  | _ => negate (all clauses)

/-- Whether an operator object ignores case by itself. -/
def ignoresCase (operators : Fields) : Bool :=
  operators.get? Where.caseFlag = some (.bool true)

mutual

/-- The parts of the operators of one column. An operand that cannot be used under `not` is told as
that of `not`. -/
def ofOperators (column : String) (ignoreCase : Bool) :
    List (String × Json) → Except Unsupported (List Condition)
  | [] => .ok []
  | (operator, operand) :: rest =>
    if operator = Where.caseFlag then ofOperators column ignoreCase rest
    else do
      let part ← ofOperator column ignoreCase operator operand
      return part :: (← ofOperators column ignoreCase rest)

def ofOperator (column : String) (ignoreCase : Bool) (operator : String) :
    Json → Except Unsupported Condition
  | .obj inner =>
    if operator = "not" then
      match ofOperators column (ignoreCase || ignoresCase inner) inner with
      | .ok parts => .ok (negate (all parts))
      | .error _ => .error ⟨column, some operator⟩
    else .error ⟨column, some operator⟩
  | operand =>
    match Predicate.ofOperator? column operator ignoreCase operand with
    | some test => .ok (.predicate test)
    | none => .error ⟨column, some operator⟩

end

/-- The condition on one column. -/
def ofField (column : String) : Json → Except Unsupported Condition
  | .obj operators => do return all (← ofOperators column (ignoresCase operators) operators)
  | value =>
    match Predicate.equals? column value with
    | some test => .ok (.predicate test)
    | none => .error ⟨column, none⟩

mutual

/-- One part for each entry of a where map. -/
def ofEntries : List (String × Json) → Except Unsupported (List Condition)
  | [] => .ok []
  | (key, value) :: rest => do
    let part ←
      if key = Where.conjunction then all <$> ofClauses key value
      else if key = Where.disjunction then any <$> ofClauses key value
      else if key = Where.negation then negateClauses value <$> ofClauses key value
      else ofField key value
    return part :: (← ofEntries rest)

/-- The clauses of a logical entry, all of which have to be objects. -/
def ofClauses (key : String) : Json → Except Unsupported (List Condition)
  | .obj entries => do return [all (← ofEntries entries)]
  | .arr items => if items.all (·.isObj) then ofItems items else .error ⟨key, none⟩
  | _ => .error ⟨key, none⟩

def ofItems : List Json → Except Unsupported (List Condition)
  | [] => .ok []
  | .obj entries :: rest => do
    let clause ← ofEntries entries
    return all clause :: (← ofItems rest)
  | _ :: rest => ofItems rest

end

/-- The condition that a where map states. -/
def ofWhere (condition : Fields) : Except Unsupported Condition := all <$> ofEntries condition

end Condition

end RecordQuery.Sql
