import RecordQuery.Arguments
import RecordQuery.Event

/-!
# Sessions and the store

A session is what calls leave behind: the content of the cache, the calls made so far, the events
reported, and the instant. Delegates and the store are given by their answers; a delegate may answer
each call differently, so its answer depends on the number of the call.
-/

namespace RecordQuery

/-- A call that has left the library. -/
inductive Call where
  | delegate (name : String) (operation : Operation) (arguments : Arguments)
  | raw (query : String)
  /-- A computation of the caller that stands behind the cache. -/
  | producer
  deriving DecidableEq, Inhabited

structure Session (σ : Type) where
  now : Instant := 0
  cache : σ
  calls : List Call := []
  /-- How many of the calls went to delegates. -/
  delegateCalls : Nat := 0
  events : List Event := []
  deriving Inhabited

/-- The operations on one model. -/
structure Delegate where
  name : String
  answer : (number : Nat) → Operation → Arguments → Except DatabaseError Json

structure Store where
  rows : (query : String) → Except DatabaseError (List Json)
  model? : String → Option Delegate := fun _ => none

/-- A computation on a session that may fail with `ε`. -/
abbrev SessionM (ε σ : Type) := ExceptT ε (StateM (Session σ))

/-- A unit of work on the store, which fails as the store does. -/
abbrev Work (σ : Type) := SessionM DatabaseError σ

/-- A call of the facade. -/
abbrev Run (σ : Type) := SessionM Failure σ

variable {σ ε : Type}

namespace Session

def record (call : Call) : SessionM ε σ Unit :=
  modify fun session => { session with calls := session.calls ++ [call] }

def emit (events : List Event) : SessionM ε σ Unit :=
  modify fun session => { session with events := session.events ++ events }

end Session

namespace Delegate

/-- Hands a call to the delegate; the answer is due under the number of the call. -/
def send (delegate : Delegate) (operation : Operation) (arguments : Arguments) :
    SessionM ε σ Nat := do
  Session.record (.delegate delegate.name operation arguments)
  let number := (← get).delegateCalls + 1
  modify fun session => { session with delegateCalls := number }
  return number

def call (delegate : Delegate) (operation : Operation) (arguments : Arguments) : Work σ Json := do
  let number ← delegate.send operation arguments
  ofExcept (delegate.answer number operation arguments)

end Delegate

namespace Store

def raw (store : Store) (query : String) : Work σ (List Json) := do
  Session.record (.raw query)
  ofExcept (store.rows query)

/-- Calls a delegate of the store by the name of its model. -/
def callModel (store : Store) (model : String) (operation : Operation) (arguments : Arguments) :
    Work σ Json :=
  match store.model? model with
  | some delegate => delegate.call operation arguments
  | none => throw (.custom ("no " ++ model ++ " delegate"))

end Store

end RecordQuery
