/-!
# Delegate operations
-/

namespace RecordQuery

inductive Operation where
  | create | findUnique | findFirst | findMany
  | update | delete | upsert
  | createMany | updateMany | deleteMany
  | aggregate | groupBy
  deriving DecidableEq, Repr, Inhabited

namespace Operation

def name : Operation → String
  | create => "create"
  | findUnique => "findUnique"
  | findFirst => "findFirst"
  | findMany => "findMany"
  | update => "update"
  | delete => "delete"
  | upsert => "upsert"
  | createMany => "createMany"
  | updateMany => "updateMany"
  | deleteMany => "deleteMany"
  | aggregate => "aggregate"
  | groupBy => "groupBy"

def all : List Operation :=
  [create, findUnique, findFirst, findMany, update, delete, upsert, createMany, updateMany,
    deleteMany, aggregate, groupBy]

def ofName? (name : String) : Option Operation := all.find? (·.name == name)

theorem ofName?_name (operation : Operation) : ofName? operation.name = some operation := by
  cases operation <;> decide

end Operation

end RecordQuery
