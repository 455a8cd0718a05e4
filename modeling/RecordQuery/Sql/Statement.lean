import RecordQuery.Arguments
import RecordQuery.SortList
import RecordQuery.Sql.Condition

/-!
# Statements

A statement is written as pieces, each a fixed text or a parameter. The same pieces give the
template, in which every parameter is a question mark, the list of parameters, and the text with the
parameters in place.
-/

namespace RecordQuery.Sql

inductive Piece where
  | text (value : String)
  | parameter (value : Parameter)
  deriving DecidableEq, Repr

/-- A text between marks, a mark inside it being doubled. -/
def delimited (mark : Char) (text : String) : String :=
  String.ofList (mark :: text.toList.flatMap (fun c => if c = mark then [c, c] else [c]) ++ [mark])

def identifier (name : String) : String := delimited '"' name

/-- Plain decimal notation, without an exponent and without a fraction of zero; of two shortest
decimals that are equally near the upper one is written. -/
def plainDouble (d : Double) : String :=
  String.ofList ((if d.negative then ['-'] else []) ++ (d.shortest .up).positional)

namespace Parameter

def literal : Parameter → String
  | bool true => "TRUE"
  | bool false => "FALSE"
  | int value => toString value
  | double value => plainDouble value
  | text value => delimited '\'' value
  | count value => toString value
  | constant value => toString value

end Parameter

namespace Piece

def template (pieces : List Piece) : String :=
  String.join (pieces.map fun | .text value => value | .parameter _ => "?")

def inlined (pieces : List Piece) : String :=
  String.join (pieces.map fun | .text value => value | .parameter value => value.literal)

def parameters (pieces : List Piece) : List Parameter :=
  pieces.filterMap fun | .text _ => none | .parameter value => some value

end Piece

def Comparison.symbol : Comparison → String
  | eq => "="
  | ne => "<>"
  | gt => ">"
  | gte => ">="
  | lt => "<"
  | lte => "<="

namespace Predicate

/-- Parameters in parentheses. -/
def tuple (values : List Parameter) : List Piece :=
  .text "(" :: (values.map .parameter).intersperse (.text ", ") ++ [.text ")"]

/-- A comparison of constants that stands for a membership test without operands. -/
def constantTest (left right : Nat) : List Piece :=
  [.parameter (.constant left), .text " = ", .parameter (.constant right)]

def pieces : Predicate → List Piece
  | compare column comparison value =>
    [.text (identifier column ++ " " ++ comparison.symbol ++ " "), .parameter value]
  | isNull column => [.text (identifier column ++ " IS NULL")]
  | isNotNull column => [.text (identifier column ++ " IS NOT NULL")]
  | like column upperCase pattern =>
    let subject :=
      if upperCase then "UPPER(" ++ identifier column ++ ")" else identifier column
    [.text (subject ++ " LIKE "), .parameter (.text pattern), .text " ESCAPE '\\'"]
  | isIn _ [] => constantTest 1 2
  | isIn column values => .text (identifier column ++ " IN ") :: tuple values
  | isNotIn _ [] => constantTest 1 1
  | isNotIn column values => .text (identifier column ++ " NOT IN ") :: tuple values

end Predicate

/-- A condition with its parts joined two by two. -/
inductive Expression where
  | predicate (test : Predicate)
  | constant (value : Bool)
  | not (operand : Expression)
  | join (connective : Connective) (left right : Expression)
  deriving Repr

def Connective.keyword : Connective → String
  | all => " AND "
  | any => " OR "

namespace Condition

mutual

def toExpression : Condition → Expression
  | .predicate test => .predicate test
  | .group connective negated parts =>
    let joined := joinParts connective parts
    if negated then .not joined else joined

/-- The parts joined from left to right. -/
def joinParts (connective : Connective) : List Condition → Expression
  | [] => .constant (connective == .all)
  | first :: rest => joinOnto connective (toExpression first) rest

def joinOnto (connective : Connective) (left : Expression) : List Condition → Expression
  | [] => left
  | next :: rest => joinOnto connective (.join connective left (toExpression next)) rest

end

end Condition

namespace Expression

def isNot : Expression → Bool
  | not _ => true
  | _ => false

def isJoin : Expression → Bool
  | join .. => true
  | _ => false

/-- Whether the expression is a join by another connective. -/
def joinsOtherwise (connective : Connective) : Expression → Bool
  | join other _ _ => other != connective
  | _ => false

def parenthesised (needed : Bool) (pieces : List Piece) : List Piece :=
  if needed then .text "(" :: pieces ++ [.text ")"] else pieces

/-- Joins go from left to right, so a join on the right or below a negation has parentheses, and so
has one on the left of the other connective. A negation that is an operand always has them. -/
def pieces : Expression → List Piece
  | predicate test => test.pieces
  | constant value => [.text (if value then "TRUE" else "FALSE")]
  | not operand => .text "NOT " :: parenthesised (operand.isNot || operand.isJoin) operand.pieces
  | join connective left right =>
    parenthesised (left.isNot || left.joinsOtherwise connective) left.pieces
      ++ .text connective.keyword
      :: parenthesised (right.isNot || right.isJoin) right.pieces

end Expression

/-- A selection of all columns of one table. -/
structure Select where
  table : String
  condition : Option Condition := none
  sort : SortList := []
  limit : Option Nat := none
  offset : Option Nat := none
  deriving Repr

def directionKeyword : Direction → String
  | .asc => " ASC"
  | .desc => " DESC"

namespace Select

def orderPieces (sort : SortList) : List Piece :=
  match sort.map fun (field, direction) =>
    Piece.text (identifier field ++ directionKeyword direction) with
  | [] => []
  | items => .text " ORDER BY " :: items.intersperse (.text ", ")

def countPieces (keyword : String) (rows : Option Nat) : List Piece :=
  match rows with
  | none => []
  | some value => [.text keyword, .parameter (.count value)]

def pieces (select : Select) : List Piece :=
  .text ("SELECT * FROM " ++ identifier select.table)
    :: (match select.condition with
      | none => []
      | some condition => .text " WHERE " :: condition.toExpression.pieces)
    ++ orderPieces select.sort
    ++ countPieces " LIMIT " select.limit
    ++ countPieces " OFFSET " select.offset

/-- The number of rows under a key, which must not be negative. -/
def rows (key : String) (value : Int64) : Except Unsupported Nat :=
  if value.toInt < 0 then .error ⟨key, none⟩ else .ok value.toInt.toNat

/-- The same statement for those of its rows for which the condition holds too. -/
def restrict (select : Select) (condition : Condition) : Select :=
  { select with condition := some (select.condition.elim condition (·.conjoin condition)) }

/-- Adds the condition of arguments and their ordering to those of the statement, and takes over
their window, in this order. On failure the statement is as far as it came before the part that
failed. -/
def withArguments (select : Select) (arguments : Arguments) : Select × Except Unsupported Unit :=
  match arguments.condition.mapM Condition.ofWhere with
  | .error cause => (select, .error cause)
  | .ok condition =>
    let restricted := condition.elim select select.restrict
    let sort := (arguments.orderBy.map SortList.ofNative).getD []
    let sorted := { restricted with sort := restricted.sort ++ sort }
    match arguments.take.mapM (rows "take") with
    | .error cause => (sorted, .error cause)
    | .ok limit =>
      let limited := { sorted with limit := limit <|> sorted.limit }
      match arguments.skip.mapM (rows "skip") with
      | .error cause => (limited, .error cause)
      | .ok offset => ({ limited with offset := offset <|> limited.offset }, .ok ())

end Select

end RecordQuery.Sql
