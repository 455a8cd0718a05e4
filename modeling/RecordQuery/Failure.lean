import RecordQuery.Cache
import RecordQuery.Decode

/-!
# Failures of the facade

A failure carries the error of the store, of the cache or of a decoder unchanged, so that a caller
can still tell them apart.
-/

namespace RecordQuery

/-- What a delegate or the store reports. -/
inductive DatabaseError where
  | custom (message : String)
  | recordNotFound (message : String)
  | type (message : String)
  | json (message : String)
  | query (message : String)
  | connection (message : String)
  | notUpdated
  | notInserted
  deriving DecidableEq, Repr, Inhabited

namespace DatabaseError

def message : DatabaseError → String
  | custom message => "Custom Error: " ++ message
  | recordNotFound message => "RecordNotFound Error: " ++ message
  | type message => "Type Error: " ++ message
  | json message => "Json Error: " ++ message
  | query message => "Query Error: " ++ message
  | connection message => "Connection Error: " ++ message
  | notUpdated => "None of the records are updated"
  | notInserted => "None of the records are inserted"

/-- The cause below a database error: a query and a connection fail because of the driver's own
error. -/
def source? : DatabaseError → Option String
  | query message | connection message => some message
  | _ => none

end DatabaseError

inductive Failure where
  | database (error : DatabaseError)
  | cache (error : CacheError)
  | invalidRequest (error : DecodeError)
  /-- A result does not decode as a record of the model. -/
  | undecodable (model : String) (error : DecodeError)
  deriving DecidableEq, Repr, Inhabited

namespace Failure

def message : Failure → String
  | database error => "database error: " ++ error.message
  | cache error => "cache error: " ++ error.message
  | invalidRequest error => "invalid request: " ++ error.message
  | undecodable model error => "failed to decode " ++ model ++ " result: " ++ error.message

def isNotFound : Failure → Bool
  | database (.recordNotFound _) => true
  | _ => false

def databaseError? : Failure → Option DatabaseError
  | database error => some error
  | _ => none

/-- The texts of the causes, each below the one before. -/
def sources : Failure → List String
  | database error => error.message :: error.source?.toList
  | cache (.refused message source) => message :: source.toList
  | cache .clockOverflow => [CacheError.clockOverflow.message]
  | invalidRequest error | undecodable _ error => [error.message]

end Failure

end RecordQuery
