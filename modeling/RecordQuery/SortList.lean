import RecordQuery.Decode

/-!
# Sort lists

A sort list names fields with a direction; an earlier entry takes precedence, so the order of the
entries is kept in every form. The native form is a list of objects with one entry each, because an
object by itself has no order.
-/

namespace RecordQuery

inductive Direction where
  | asc
  | desc
  deriving DecidableEq, Repr, Inhabited

namespace Direction

def name : Direction → String
  | asc => "asc"
  | desc => "desc"

/-- Reads a direction in letters of either case. -/
def ofName? (text : String) : Option Direction :=
  let letters := text.toList.map Char.toLower
  if letters = ['a', 's', 'c'] then some asc
  else if letters = ['d', 'e', 's', 'c'] then some desc
  else none

theorem ofName?_name (direction : Direction) : ofName? direction.name = some direction := by
  cases direction <;> decide

def decode (doc : Doc) : Decode Direction := do
  let text ← doc.text
  match ofName? text with
  | some direction => return direction
  | none => throw (.notDirection text)

end Direction

abbrev SortList := List (String × Direction)

namespace SortList

/-- The entries as an object, in the order of the list. -/
def sourceForm (sort : SortList) : Json := .obj (sort.map fun (field, d) => (field, .str d.name))

/-- One object for a single entry, otherwise a list of objects with one entry each. -/
def toNative (sort : SortList) : Json :=
  match sort.map fun (field, direction) => Json.obj [(field, .str direction.name)] with
  | [entry] => entry
  | entries => .arr entries

def readEntries : List (String × Doc) → Decode SortList
  | [] => .ok []
  | (field, doc) :: rest => do
    let direction ← Direction.decode doc
    return (field, direction) :: (← readEntries rest)

def decodeObject (entries : List (String × Doc)) (stop : Option Fault) : Decode SortList := do
  let sort ← readEntries entries
  Decode.ofSource (Doc.finish sort stop)

/-- Reads an item of a list, whose entries go in key order, the last for a key staying. -/
def decodeItem : Doc → Decode SortList
  | .obj entries stop => do return Entries.ofList (← decodeObject entries stop)
  | doc => .error (doc.mismatch .map)

/-- Reads an object in the order in which it is written, or a list of objects. -/
def decode : Doc → Decode SortList
  | .obj entries stop => decodeObject entries stop
  | .arr items stop => do
    let sorts ← items.mapM decodeItem
    Decode.ofSource (Doc.finish sorts.flatten stop)
  | doc => .error (doc.mismatch .sortList)

def ofEntry? (entry : String × Json) : Option (String × Direction) :=
  match entry.2 with
  | .str text => (Direction.ofName? text).map (entry.1, ·)
  | _ => none

mutual

/-- The entries of a native ordering; what is not a plain direction is left out. -/
def ofNative : Json → SortList
  | .obj entries => entries.filterMap ofEntry?
  | .arr items => ofNativeItems items
  | _ => []

def ofNativeItems : List Json → SortList
  | [] => []
  | item :: rest => ofNative item ++ ofNativeItems rest

end

end SortList

end RecordQuery
