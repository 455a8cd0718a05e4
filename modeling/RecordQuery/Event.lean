import RecordQuery.Failure
import RecordQuery.Operation

/-!
# Events

What the library reports while it works: which way a request took and how it failed.
-/

namespace RecordQuery

inductive Event where
  | unknownSuffix (key : String)
  | compiled (hasWhere hasSelect hasInclude : Bool)
  | bareIgnored (value : Json)
  | dispatched (operation : Operation) (model : Option String)
  | refreshForced (key : String)
  | cacheHit (key : String)
  | cacheMiss (key : String)
  | markedDeleted (field : String) (model : Option String)
  | rawQuery (model : Option String)
  | failed (failure : Failure)
  deriving DecidableEq, Inhabited

inductive Level where
  | trace
  | debug
  | warn
  | error
  deriving DecidableEq, Repr

def Level.name : Level → String
  | trace => "trace"
  | debug => "debug"
  | warn => "warn"
  | error => "error"

namespace Event

def level : Event → Level
  | unknownSuffix _ | compiled .. => .trace
  | bareIgnored _ => .warn
  | failed (.database _) | failed (.cache _) => .error
  | _ => .debug

def message : Event → String
  | unknownSuffix _ => "Unknown filter operator, using equality"
  | compiled .. => "Compiled query options"
  | bareIgnored _ => "Ignoring bare request that is not an object"
  | dispatched .. => "Dispatching to delegate"
  | refreshForced _ => "Cache refresh forced"
  | cacheHit _ => "Cache hit"
  | cacheMiss _ => "Cache miss"
  | markedDeleted .. => "Substituting soft delete for physical delete"
  | rawQuery _ => "Running raw query"
  | failed (.database _) => "Database error occurred"
  | failed (.cache _) => "Cache adapter error occurred"
  | failed (.invalidRequest _) => "Invalid request shape"
  | failed (.undecodable ..) => "Failed to decode delegate result"

/-- How a model is named that has no name. -/
def modelName (model : Option String) : Json := .str (model.getD "-")

/-- The named details of an event. -/
def fields : Event → Fields
  | unknownSuffix key => [("key", .str key)]
  | compiled hasWhere hasSelect hasInclude =>
    [("has_include", .bool hasInclude), ("has_select", .bool hasSelect),
      ("has_where", .bool hasWhere)]
  | bareIgnored value => [("value", .str value.compact)]
  | dispatched operation model => [("model", modelName model), ("operation", .str operation.name)]
  | refreshForced key | cacheHit key | cacheMiss key => [("key", .str key)]
  | markedDeleted field model => [("field", .str field), ("model", modelName model)]
  | rawQuery model => [("model", modelName model)]
  | failed (.undecodable model _) => [("model", .str model)]
  | failed _ => []

end Event

end RecordQuery
