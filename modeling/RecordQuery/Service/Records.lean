import RecordQuery.Service

/-!
# Services of one type of record

Results are decoded as records, and a read is cached under a key made of its final arguments unless
the call gives another. A condition has to be an object. A payload is given by its JSON form, or by
the reason why it has none.
-/

namespace RecordQuery

structure RecordType (ρ : Type) where
  name : String
  decode : Doc → Decode ρ

/-- The JSON form of a caller's value, or why it has none. -/
abbrev Payload := Except String Json

structure RecordService (σ ρ : Type) where
  base : Service σ
  record : RecordType ρ

namespace RecordService

variable {σ ρ : Type}

/-- The records behind a service, which takes the name of their type. -/
def ofService (service : Service σ) (record : RecordType ρ) : RecordService σ ρ :=
  ⟨{ service with model := some record.name }, record⟩

/-- Decodes a result as a type that is told by its name. -/
def decoded {α : Type} (type : RecordType α) (value : Json) : Run σ α :=
  Service.orFail (.undecodable type.name) (value.decode type.decode)

/-- Decodes a result that is null when nothing was found. -/
def decodedOptional {α : Type} (type : RecordType α) (value : Json) : Run σ (Option α) := do
  if value.isNull then return none
  else return some (← decoded type value)

def payload (value : Payload) : Run σ Json :=
  Service.orFail (fun reason => .invalidRequest (.ofMessage reason)) value

def condition (value : Payload) : Run σ Fields := do
  match ← payload value with
  | .obj fields => return fields
  | other => Service.fail (.invalidRequest (.notCondition other))

variable (service : RecordService σ ρ)

def listType : RecordType (List ρ) := ⟨service.record.name, Doc.listOf service.record.decode⟩

def read (operation : Operation) (arguments : Arguments) (options : CacheOptions) : Run σ Json :=
  let key := options.key.getD (cacheKey operation arguments)
  service.base.cachedCall operation arguments (some key) options

def readRequest (operation : Operation) (request : Request) (options : CacheOptions) :
    Run σ Json := do
  let arguments ← service.base.normalized none request
  service.read operation arguments options

def findUnique (request : Request) (options : CacheOptions) : Run σ (Option ρ) := do
  decodedOptional service.record (← service.readRequest .findUnique request options)

def findUniqueBy (unique : Payload) (options : CacheOptions) : Run σ (Option ρ) := do
  let fields ← condition unique
  let value ← service.read .findUnique { condition := some fields } options
  decodedOptional service.record value

def findFirst (request : Request) (options : CacheOptions) : Run σ (Option ρ) := do
  decodedOptional service.record (← service.readRequest .findFirst request options)

def findMany (request : Request) (options : CacheOptions) : Run σ (List ρ) := do
  decoded service.listType (← service.readRequest .findMany request options)

/-- Aggregates are not decoded. -/
def aggregate (request : Request) (options : CacheOptions) : Run σ Json :=
  service.readRequest .aggregate request options

def groupBy (request : Request) (options : CacheOptions) : Run σ Json :=
  service.readRequest .groupBy request options

def create (data : Payload) : Run σ ρ := do
  let value ← payload data
  decoded service.record (← service.base.call .create { data := some value })

def update (unique data : Payload) : Run σ ρ := do
  let fields ← condition unique
  let value ← payload data
  let result ← service.base.call .update { condition := some fields, data := some value }
  decoded service.record result

def delete (unique : Payload) (mode : DeleteMode) : Run σ ρ := do
  let fields ← condition unique
  decoded service.record (← service.base.delete (.native { condition := some fields }) mode)

def upsert (unique create update : Payload) : Run σ ρ := do
  let fields ← condition unique
  let created ← payload create
  let updated ← payload update
  let arguments : Arguments := { condition := some fields }
  let request := (arguments.set "create" created).set "update" updated
  decoded service.record (← service.base.upsert (.native request))

/-- Runs a raw query and decodes its rows, up to the first that does not decode. -/
def raw {α : Type} (row : RecordType α) (query : String) : Run σ (List α) := do
  (← service.base.raw query).mapM (decoded row)

end RecordService

end RecordQuery
