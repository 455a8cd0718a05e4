import RecordQuery.Request
import RecordQuery.Session
import RecordQuery.Settings

/-!
# The service

A service stands before one delegate. It brings every request into native form, merges a base
condition into it, reads through the cache when a key is given, and turns a delete into an update
of the marker field. Failures of the delegate and of the cache are passed on unchanged.
-/

namespace RecordQuery

/-- The text by which a call is known to the cache: the operation and its final arguments. -/
def cacheKey (operation : Operation) (arguments : Arguments) : String :=
  operation.name ++ ":" ++ arguments.text

/-- What is reported while a shorthand is brought into native form. -/
def Shorthand.compileEvents (marker : Option String) (shorthand : Shorthand) : List Event :=
  let arguments := shorthand.compile marker
  (Filter.unknownKeys (shorthand.filters.getD [])).map .unknownSuffix
    ++ [.compiled arguments.condition.isSome arguments.selected.isSome arguments.included.isSome]

/-- What a caller says about caching one call. -/
structure CacheOptions where
  key : Option String := none
  lifetime : Option Lifetime := none
  forceRefresh : Bool := false
  deriving DecidableEq, Repr, Inhabited

inductive DeleteMode where
  | soft
  | hard
  deriving DecidableEq, Repr, Inhabited

structure Service (σ : Type) where
  delegate : Delegate
  store : Store
  config : Config σ := {}
  /-- How an instant is written into the marker field. -/
  stamp : Instant → String
  model : Option String := none

/-- A read that waits for the delegate. -/
structure PendingRead where
  number : Nat
  operation : Operation
  arguments : Arguments
  key : Option String
  options : CacheOptions

namespace Service

variable {σ : Type} (service : Service σ)

/-- Reports a failure and ends the call with it. A clock that overflows ends the call unreported. -/
def fail {α : Type} (failure : Failure) : Run σ α := do
  match failure with
  | .cache .clockOverflow => throw failure
  | _ =>
    Session.emit [.failed failure]
    throw failure

/-- Goes on with a result, or fails with its error. -/
def orFail {α ε : Type} (wrap : ε → Failure) : Except ε α → Run σ α
  | .ok value => return value
  | .error cause => fail (wrap cause)

/-- Does a unit of work on the store. -/
def perform {α : Type} (work : Work σ α) : Run σ α := do
  let (result, session) := work.run.run (← get)
  set session
  orFail .database result

/-- Merges a where map into another, if there are both. -/
def mergeWhere : (bottom top : Option Fields) → Option Fields
  | bottom, none => bottom
  | none, top => top
  | some bottom, some top => some (Where.merge bottom top)

/-- A request in native form, with a base condition merged into it. On a clash of plain values a
shorthand gives way to the base, and the base to any other request. -/
def normalize (base : Option Fields) : Request → Arguments
  | .shorthand options =>
    let arguments := options.compile service.config.marker
    { arguments with condition := mergeWhere arguments.condition base }
  | .native arguments => { arguments with condition := mergeWhere base arguments.condition }
  | .bare (.obj condition) => { condition := mergeWhere base (some condition) }
  | .bare _ => { condition := base }

/-- What is reported while a request is brought into native form. -/
def normalizeEvents : Request → List Event
  | .shorthand options => options.compileEvents service.config.marker
  | .bare (.obj _) | .bare .null | .native _ => []
  | .bare value => [.bareIgnored value]

def normalized (base : Option Fields) (request : Request) : Run σ Arguments := do
  Session.emit (service.normalizeEvents request)
  return service.normalize base request

/-- Hands a call to the delegate. -/
def send (operation : Operation) (arguments : Arguments) : Run σ Nat := do
  Session.emit [.dispatched operation service.model]
  service.delegate.send operation arguments

/-- The delegate's answer to a call that was handed to it. -/
def answer (number : Nat) (operation : Operation) (arguments : Arguments) : Run σ Json :=
  orFail .database (service.delegate.answer number operation arguments)

/-- Calls the delegate. -/
def call (operation : Operation) (arguments : Arguments) : Run σ Json := do
  let number ← service.send operation arguments
  service.answer number operation arguments

/-- The cached value for a key, null counting as none. -/
def lookUp (key : Option String) (options : CacheOptions) : Run σ (Option Json) := do
  match service.config.cache, key with
  | some cache, some key =>
    if options.forceRefresh then
      Session.emit [.refreshForced key]
      return none
    else
      let session ← get
      let (found, content) := cache.get session.now key session.cache
      set { session with cache := content }
      match (← orFail .cache found).filter (!·.isNull) with
      | some hit =>
        Session.emit [.cacheHit key]
        return some hit
      | none =>
        Session.emit [.cacheMiss key]
        return none
  | _, _ => return none

/-- Stores a fresh value under a key unless it is null. -/
def keep (key : Option String) (options : CacheOptions) (value : Json) : Run σ Json := do
  match service.config.cache, key with
  | some cache, some key =>
    if value.isNull then return value
    else
      let session ← get
      let lifetime := options.lifetime <|> service.config.lifetime
      let (stored, content) := cache.set session.now key value lifetime session.cache
      set { session with cache := content }
      orFail .cache stored
      return value
  | _, _ => return value

/-- Runs a computation behind the cache. -/
def withCache (key : Option String) (options : CacheOptions) (producer : Run σ Json) :
    Run σ Json := do
  match ← service.lookUp key options with
  | some hit => return hit
  | none => service.keep key options (← producer)

/-- Starts a read: the cached value, or the call that the delegate has been handed. -/
def startRead (operation : Operation) (arguments : Arguments) (key : Option String)
    (options : CacheOptions) : Run σ (Json ⊕ PendingRead) := do
  match ← service.lookUp key options with
  | some hit => return .inl hit
  | none =>
    let number ← service.send operation arguments
    return .inr ⟨number, operation, arguments, key, options⟩

/-- Ends a read with the delegate's answer. -/
def finishRead : Json ⊕ PendingRead → Run σ Json
  | .inl hit => return hit
  | .inr pending => do
    let value ← service.answer pending.number pending.operation pending.arguments
    service.keep pending.key pending.options value

def cachedCall (operation : Operation) (arguments : Arguments) (key : Option String)
    (options : CacheOptions) : Run σ Json :=
  service.withCache key options (service.call operation arguments)

def read (operation : Operation) (base : Option Fields) (request : Request)
    (options : CacheOptions) : Run σ Json := do
  let arguments ← service.normalized base request
  service.cachedCall operation arguments options.key options

def findUnique : Request → CacheOptions → Run σ Json := service.read .findUnique none

def findFirst : Request → CacheOptions → Run σ Json := service.read .findFirst none

def findMany : Request → CacheOptions → Run σ Json := service.read .findMany none

def findUniqueWhere (base : Fields) : Request → CacheOptions → Run σ Json :=
  service.read .findUnique (some base)

def findFirstWhere (base : Fields) : Request → CacheOptions → Run σ Json :=
  service.read .findFirst (some base)

def findManyWhere (base : Fields) : Request → CacheOptions → Run σ Json :=
  service.read .findMany (some base)

def aggregate : Request → CacheOptions → Run σ Json := service.read .aggregate none

def groupBy : Request → CacheOptions → Run σ Json := service.read .groupBy none

/-- Two searches at once: both start, then each ends, in their order. -/
def findManyBoth (first second : Request) (options : CacheOptions) :
    StateM (Session σ) (Except Failure Json × Except Failure Json) := do
  let start (request : Request) : Run σ (Json ⊕ PendingRead) := do
    let arguments ← service.normalized none request
    service.startRead .findMany arguments options.key options
  let finish (started : Except Failure (Json ⊕ PendingRead)) : Run σ Json := do
    service.finishRead (← ofExcept started)
  let startedFirst ← (start first).run
  let startedSecond ← (start second).run
  let endedFirst ← (finish startedFirst).run
  let endedSecond ← (finish startedSecond).run
  return (endedFirst, endedSecond)

/-- The arguments of a create, where a bare value is the payload. -/
def payloadArguments : Request → Arguments
  | .bare payload => { data := some payload }
  | .shorthand options => options.compile service.config.marker
  | .native arguments => arguments

/-- What is reported while the arguments of a write are brought into native form, where every bare
value is a payload. -/
def writeEvents : Request → List Event
  | .shorthand options => options.compileEvents service.config.marker
  | _ => []

/-- The arguments of an update: a bare value is the payload, and a shorthand without one changes
nothing. -/
def updateArguments (base : Option Fields) : Request → Arguments
  | .bare payload => { condition := base, data := some payload }
  | .shorthand options =>
    let arguments := service.normalize base (.shorthand options)
    { arguments with data := some (arguments.data.getD (.obj [])) }
  | .native arguments => service.normalize base (.native arguments)

def createBy (operation : Operation) (request : Request) : Run σ Json := do
  Session.emit (service.writeEvents request)
  service.call operation (service.payloadArguments request)

def create : Request → Run σ Json := service.createBy .create

def createMany : Request → Run σ Json := service.createBy .createMany

def updateBy (operation : Operation) (base : Option Fields) (request : Request) : Run σ Json := do
  Session.emit (service.writeEvents request)
  service.call operation (service.updateArguments base request)

def update : Option Fields → Request → Run σ Json := service.updateBy .update

def updateMany : Option Fields → Request → Run σ Json := service.updateBy .updateMany

/-- The arguments of the update that marks rows as deleted: only the data differ. -/
def markArguments (field : String) (now : Instant) (arguments : Arguments) : Arguments :=
  { arguments with data := some (.obj [(field, .str (service.stamp now))]) }

/-- Deletes by marking, when that is asked for and a marker is configured, or else physically. -/
def deleteBy (physical marking : Operation) (request : Request) (mode : DeleteMode) :
    Run σ Json := do
  let arguments ← service.normalized none request
  match mode, service.config.marker with
  | .soft, some field =>
    Session.emit [.markedDeleted field service.model]
    service.call marking (service.markArguments field (← get).now arguments)
  | _, _ => service.call physical arguments

def delete : Request → DeleteMode → Run σ Json := service.deleteBy .delete .update

def deleteMany : Request → DeleteMode → Run σ Json := service.deleteBy .deleteMany .updateMany

def upsert (request : Request) : Run σ Json := do
  let arguments ← service.normalized none request
  service.call .upsert arguments

/-- Runs a raw query on the store. -/
def raw (query : String) : Run σ (List Json) := do
  Session.emit [.rawQuery service.model]
  perform (service.store.raw query)

/-- Runs a unit of work within a transaction of the store. -/
def transaction (work : Store → Work σ Json) : Run σ Json := perform (work service.store)

end Service

end RecordQuery
