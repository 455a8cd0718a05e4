/-!
# Positions at the end of a message

A message may end by saying where in a text it arose. Such an end is taken off and kept as numbers,
so that it is written anew in one way. Lines are counted from one, and line zero says nothing.
-/

namespace RecordQuery.Text

structure Position where
  line : Nat := 0
  column : Nat := 0
  deriving DecidableEq, Repr, Inhabited

namespace Position

/-- What a message ends with. -/
def suffix (position : Position) : String :=
  if position.line = 0 then ""
  else " at line " ++ toString position.line ++ " column " ++ toString position.column

/-- What stands before and after the last occurrence of a part. -/
def splitLast? (part : List Char) : List Char → Option (List Char × List Char)
  | [] => none
  | c :: rest =>
    match splitLast? part rest with
    | some (before, after) => some (c :: before, after)
    | none => (part.isPrefixOf? (c :: rest)).map ([], ·)

/-- The number that digits write, if there are any and it fits in 64 bits. -/
def number? (digits : List Char) : Option Nat :=
  let value := digits.foldl (fun n c => n * 10 + (c.toNat - '0'.toNat)) 0
  if digits ≠ [] ∧ value < 2 ^ 64 then some value else none

/-- Reads ` at line L column C`, from the line number on. -/
def ofSuffix? (text : List Char) : Option Position := do
  let columnPart ← " column ".toList.isPrefixOf? (text.dropWhile Char.isDigit)
  if columnPart.all Char.isDigit then
    return ⟨← number? (text.takeWhile Char.isDigit), ← number? columnPart⟩
  else none

/-- A message without the position at its end, and that position. -/
def split (message : String) : String × Position :=
  let found := do
    let (before, after) ← splitLast? " at line ".toList message.toList
    return (String.ofList before, ← ofSuffix? after)
  found.getD (message, {})

end Position

end RecordQuery.Text
