import RecordQuery.Decode
import RecordQuery.Filter

/-!
# Free-text search

A search looks for a term in any of several fields, ignoring case. It is active when both the term
and the list of fields are non-empty.
-/

namespace RecordQuery

structure Search where
  term : String
  fields : List String := []
  deriving DecidableEq, Repr, Inhabited

namespace Search

def isActive (search : Search) : Bool := search.term ≠ "" && !search.fields.isEmpty

/-- One condition for each field, any of which may hold; nothing for an inactive search. -/
def clauses? (search : Search) : Option Json :=
  if search.isActive then
    some (.arr (search.fields.map fun field =>
      .obj [(field, Operator.contains.condition search.term)]))
  else none

def toJson (search : Search) : Json :=
  .obj [("fields", .arr (search.fields.map .str)), ("term", search.term)]

def shape : RecordShape Search where
  name := "SearchSpec"
  fields := [
    ("term", fun doc search => do return { search with term := ← doc.text }),
    ("fields", fun doc search => do return { search with fields := ← doc.listOf Doc.text })]
  required := ["term"]
  blank := ⟨"", []⟩

end Search

/-- Puts a backslash before the wildcards of a pattern and before the backslash itself. -/
def escapeLike (term : List Char) : List Char :=
  term.flatMap fun c => if c = '\\' ∨ c = '%' ∨ c = '_' then ['\\', c] else [c]

end RecordQuery
