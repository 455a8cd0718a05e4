import RecordQuery.Decode

/-!
# Native arguments

The arguments of one delegate call. An absent field has no entry; null is kept where it was given.
Other native keys stand beside the known ones. The text of arguments has the known keys in a fixed
order and the others after them in key order, so equal arguments have equal text.
-/

namespace RecordQuery

structure Arguments where
  condition : Option Fields := none
  selected : Option Fields := none
  included : Option Fields := none
  skip : Option Int64 := none
  take : Option Int64 := none
  orderBy : Option Json := none
  data : Option Json := none
  aggregate : Option Fields := none
  extra : Fields := []
  deriving DecidableEq, Inhabited

namespace Arguments

def isEmpty (arguments : Arguments) : Bool := arguments = {}

/-- The fields that are there under the keys of their own. -/
def known (arguments : Arguments) : List (String × Json) :=
  [("where", arguments.condition.map .obj),
    ("select", arguments.selected.map .obj),
    ("include", arguments.included.map .obj),
    ("skip", arguments.skip.map (.int ·.toInt)),
    ("take", arguments.take.map (.int ·.toInt)),
    ("orderBy", arguments.orderBy),
    ("data", arguments.data),
    ("_aggregate", arguments.aggregate.map .obj)].filterMap
      fun (key, value) => value.map (key, ·)

/-- All entries in the order in which they are written. -/
def entries (arguments : Arguments) : List (String × Json) := arguments.known ++ arguments.extra

def toJson (arguments : Arguments) : Json := .obj (Entries.ofList arguments.entries)

def text (arguments : Arguments) : String := (Json.obj arguments.entries).compact

/-- Sets a native key that has no field of its own. -/
def set (arguments : Arguments) (key : String) (value : Json) : Arguments :=
  { arguments with extra := arguments.extra.insert key value }

def shape : RecordShape Arguments where
  name := "NativeArgs"
  fields := [
    ("where", fun doc args => do return { args with condition := ← doc.optional Doc.fields }),
    ("select", fun doc args => do return { args with selected := ← doc.optional Doc.fields }),
    ("include", fun doc args => do return { args with included := ← doc.optional Doc.fields }),
    ("skip", fun doc args => do return { args with skip := ← doc.optional Doc.signed }),
    ("take", fun doc args => do return { args with take := ← doc.optional Doc.signed }),
    ("orderBy", fun doc args => do return { args with orderBy := ← doc.optional Doc.value }),
    ("data", fun doc args => do return { args with data := ← doc.optional Doc.value }),
    ("_aggregate", fun doc args => do return { args with aggregate := ← doc.optional Doc.fields })]
  blank := {}
  stray key doc arguments := do return arguments.set key (← doc.value)

/-- Reads arguments from an object; there is no positional form. -/
def decode : Doc → Decode Arguments
  | .obj entries stop => shape.decodeEntries entries stop
  | doc => .error (doc.mismatch (.record shape.name))

end Arguments

end RecordQuery
