import RecordQuery.Arguments
import RecordQuery.FieldSet
import RecordQuery.Search
import RecordQuery.SortList
import RecordQuery.Window

/-!
# Shorthand and its native form

A shorthand describes a query by filters, field sets, a search, a window and a sort list. Its native
form is a function of the shorthand and of the soft-delete marker. Filters, the marker and the
search all go into one where map and are merged there, so none replaces another.
-/

namespace RecordQuery

structure Shorthand where
  filters : Option Fields := none
  selectFields : Option FieldSet := none
  includeFields : Option FieldSet := none
  search : Option Search := none
  window : Option Window := none
  sort : Option SortList := none
  aggregate : Option Fields := none
  softDelete : Bool := false
  selected : Option Fields := none
  included : Option Fields := none
  data : Option Json := none
  deriving Inhabited

/-- The field that marks deleted rows unless another is configured. -/
def defaultMarker : String := "deletedAt"

namespace Shorthand

/-- Adds one entry to the filters. -/
def filter (shorthand : Shorthand) (key : String) (value : Json) : Shorthand :=
  { shorthand with filters := some ((shorthand.filters.getD []).insert key value) }

/-- Appends a field to the sort list, after those that take precedence over it. -/
def orderBy (shorthand : Shorthand) (field : String) (direction : Direction) : Shorthand :=
  { shorthand with sort := some ((shorthand.sort.getD []) ++ [(field, direction)]) }

/-- The filters, the absence of the marker and the search as one where map. -/
def condition (marker : Option String) (shorthand : Shorthand) : Fields :=
  let filtered := Where.merge [] (Filter.parse (shorthand.filters.getD []))
  let live := match shorthand.softDelete, marker with
    | true, some field => Where.mergeField filtered field .null
    | _, _ => filtered
  match shorthand.search.bind Search.clauses? with
  | some clauses => Where.mergeField live Where.disjunction clauses
  | none => live

/-- Native entries laid over a built tree key by key. -/
def overlay (built native : Option Fields) : Option Fields :=
  match built, native with
  | built, none => built
  | none, native => native
  | some built, some native => some (built.insertAll native)

/-- The native form. -/
def compile (marker : Option String) (shorthand : Shorthand) : Arguments :=
  let condition := shorthand.condition marker
  let (skip, take) := (shorthand.window.map Window.skipTake).getD (none, none)
  { condition := if condition.isEmpty then none else some condition
    selected := overlay (FieldSet.tree? .selection shorthand.selectFields) shorthand.selected
    included := overlay (FieldSet.tree? .inclusion shorthand.includeFields) shorthand.included
    skip, take
    orderBy := (shorthand.sort.filter (!·.isEmpty)).map SortList.toNative
    data := shorthand.data
    aggregate := shorthand.aggregate }

def shape : RecordShape Shorthand where
  name := "QueryOptions"
  fields := [
    ("filters", fun doc options => do
      return { options with filters := ← doc.optional Doc.fields }),
    ("selectFields", fun doc options => do
      return { options with selectFields := ← doc.optional FieldSet.decode }),
    ("includeFields", fun doc options => do
      return { options with includeFields := ← doc.optional FieldSet.decode }),
    ("search", fun doc options => do
      return { options with search := ← doc.optional Search.shape.decode }),
    ("pagination", fun doc options => do
      return { options with window := ← doc.optional Window.decode }),
    ("orderBy", fun doc options => do
      return { options with sort := ← doc.optional SortList.decode }),
    ("aggregate", fun doc options => do
      return { options with aggregate := ← doc.optional Doc.fields }),
    ("softDelete", fun doc options => do
      return { options with softDelete := ← doc.flag }),
    ("select", fun doc options => do
      return { options with selected := ← doc.optional Doc.fields }),
    ("include", fun doc options => do
      return { options with included := ← doc.optional Doc.fields }),
    ("data", fun doc options => do
      return { options with data := ← doc.optional Doc.value })]
  blank := {}

def decode : Doc → Decode Shorthand := shape.decode

end Shorthand

end RecordQuery
