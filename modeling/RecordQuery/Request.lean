import RecordQuery.Shorthand

/-!
# Requests

A request is native arguments, a shorthand, or a bare value. A raw value is told apart by the keys
it has with something other than null: a key that only a shorthand has makes it a shorthand, a
native key makes it native, and anything else is bare.
-/

namespace RecordQuery

inductive Request where
  | native (arguments : Arguments)
  | shorthand (options : Shorthand)
  | bare (value : Json)
  deriving Inhabited

namespace Request

def shorthandKeys : List String :=
  ["filters", "selectFields", "includeFields", "search", "pagination"]

def nativeKeys : List String := ["where", "select", "include", "data"]

/-- Whether an entry other than null stands under one of the keys. -/
def hasAny (fields : Fields) (keys : List String) : Bool :=
  keys.any fun key => (fields.present? key).isSome

/-- A request without any argument. -/
def empty : Request := .native {}

/-- Tells the kind of a raw value by its keys, and reads it as that. -/
def sniff (value : Json) : Decode Request :=
  match value with
  | .obj fields =>
    if hasAny fields shorthandKeys then do return .shorthand (← value.decode Shorthand.decode)
    else if hasAny fields nativeKeys then do return .native (← value.decode Arguments.decode)
    else .ok (.bare value)
  | _ => .ok (.bare value)

end Request

end RecordQuery
