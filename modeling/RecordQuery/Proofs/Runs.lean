import RecordQuery.Service

/-!
# Runs from a session

Run from a session, a computation has an outcome and leaves a session. A sequence runs its first
part and then, unless that failed, the rest from what the first part left. Whatever the delegate
answers, a call to it leaves exactly that call behind.
-/

namespace RecordQuery

variable {σ ε α β : Type}

namespace SessionM

/-- The outcome of a computation and the session that it leaves. -/
def runFrom (session : Session σ) (computation : SessionM ε σ α) : Except ε α × Session σ :=
  computation.run.run session

@[simp] theorem runFrom_pure (session : Session σ) (value : α) :
    runFrom session (pure value : SessionM ε σ α) = (.ok value, session) :=
  rfl

theorem runFrom_bind (session : Session σ) (first : SessionM ε σ α) (rest : α → SessionM ε σ β) :
    runFrom session (first >>= rest) =
      match runFrom session first with
      | (.ok value, later) => runFrom later (rest value)
      | (.error cause, later) => (.error cause, later) := by
  simp only [runFrom, ExceptT.run_bind, StateT.run_bind]
  rcases first.run.run session with ⟨_ | _, _⟩ <;> rfl

theorem runFrom_bind_error {session later : Session σ} {first : SessionM ε σ α} {cause : ε}
    (h : runFrom session first = (.error cause, later)) (rest : α → SessionM ε σ β) :
    runFrom session (first >>= rest) = (.error cause, later) := by
  rw [runFrom_bind, h]

theorem runFrom_bind_ok {session later : Session σ} {first : SessionM ε σ α} {value : α}
    (h : runFrom session first = (.ok value, later)) (rest : α → SessionM ε σ β) :
    runFrom session (first >>= rest) = runFrom later (rest value) := by
  rw [runFrom_bind, h]

/-- What follows a computation leaves the calls that the computation left, if it never makes any. -/
theorem calls_bind_of_silent {rest : α → SessionM ε σ β}
    (h : ∀ value session, (runFrom session (rest value)).2.calls = session.calls)
    (session : Session σ) (first : SessionM ε σ α) :
    (runFrom session (first >>= rest)).2.calls = (runFrom session first).2.calls := by
  rw [runFrom_bind]
  rcases runFrom session first with ⟨_ | value, later⟩
  · rfl
  · exact h value later

@[simp] theorem runFrom_get (session : Session σ) :
    runFrom session (get : SessionM ε σ (Session σ)) = (.ok session, session) :=
  rfl

@[simp] theorem runFrom_set (session later : Session σ) :
    runFrom session (set later : SessionM ε σ PUnit) = (.ok (), later) :=
  rfl

@[simp] theorem runFrom_emit (session : Session σ) (events : List Event) :
    runFrom session (Session.emit events : SessionM ε σ Unit) =
      (.ok (), { session with events := session.events ++ events }) :=
  rfl

@[simp] theorem runFrom_send (session : Session σ) (delegate : Delegate) (operation : Operation)
    (arguments : Arguments) :
    runFrom session (delegate.send operation arguments : SessionM ε σ Nat) =
      (.ok (session.delegateCalls + 1),
        { session with
          calls := session.calls ++ [.delegate delegate.name operation arguments]
          delegateCalls := session.delegateCalls + 1 }) :=
  rfl

end SessionM

namespace Service

open SessionM

@[simp] theorem runFrom_orFail_ok {cause : Type} (session : Session σ) (wrap : cause → Failure)
    (value : α) :
    runFrom session (orFail wrap (.ok value : Except cause α) : Run σ α) = (.ok value, session) :=
  rfl

/-- What a failure adds to the events. -/
def reported : Failure → List Event
  | .cache .clockOverflow => []
  | failure => [.failed failure]

theorem runFrom_fail (session : Session σ) (failure : Failure) :
    runFrom session (fail failure : Run σ α) =
      (.error failure, { session with events := session.events ++ reported failure }) := by
  unfold fail
  split
  · simp only [reported, List.append_nil]
    rfl
  · rename_i hreported
    have hevents : reported failure = [.failed failure] := by
      unfold reported
      split
      · exact (hreported rfl).elim
      · rfl
    rw [hevents, runFrom_bind_ok (runFrom_emit session _)]
    rfl

theorem runFrom_orFail_error {cause : Type} (session : Session σ) (wrap : cause → Failure)
    (error : cause) :
    runFrom session (orFail wrap (.error error : Except cause α) : Run σ α) =
      (.error (wrap error),
        { session with events := session.events ++ reported (wrap error) }) :=
  runFrom_fail session (wrap error)

/-- A failure leaves the calls as they are. -/
theorem calls_fail (session : Session σ) (failure : Failure) :
    (runFrom session (fail failure : Run σ α)).2.calls = session.calls := by
  rw [runFrom_fail]

theorem calls_orFail {cause : Type} (session : Session σ) (wrap : cause → Failure)
    (result : Except cause α) :
    (runFrom session (orFail wrap result : Run σ α)).2.calls = session.calls := by
  cases result with
  | ok value => rfl
  | error cause => exact calls_fail session (wrap cause)

variable (service : Service σ)

theorem runFrom_send (session : Session σ) (operation : Operation) (arguments : Arguments) :
    runFrom session (service.send operation arguments) =
      (.ok (session.delegateCalls + 1),
        { session with
          events := session.events ++ [.dispatched operation service.model]
          calls := session.calls ++ [.delegate service.delegate.name operation arguments]
          delegateCalls := session.delegateCalls + 1 }) := by
  rw [send, runFrom_bind_ok (runFrom_emit session _), SessionM.runFrom_send]

theorem calls_call (session : Session σ) (operation : Operation) (arguments : Arguments) :
    (runFrom session (service.call operation arguments)).2.calls =
      session.calls ++ [.delegate service.delegate.name operation arguments] := by
  rw [call, runFrom_bind_ok (service.runFrom_send session operation arguments), answer,
    calls_orFail]

theorem runFrom_normalized (session : Session σ) (base : Option Fields) (request : Request) :
    runFrom session (service.normalized base request) =
      (.ok (service.normalize base request),
        { session with events := session.events ++ service.normalizeEvents request }) := by
  rw [normalized, runFrom_bind_ok (runFrom_emit session _), runFrom_pure]

theorem runFrom_call (session : Session σ) (operation : Operation) (arguments : Arguments) :
    ∃ events, runFrom session (service.call operation arguments) =
      ((service.delegate.answer (session.delegateCalls + 1) operation arguments).mapError .database,
        { session with
          calls := session.calls ++ [.delegate service.delegate.name operation arguments]
          delegateCalls := session.delegateCalls + 1
          events }) := by
  rw [call, runFrom_bind_ok (service.runFrom_send session operation arguments), answer]
  cases service.delegate.answer (session.delegateCalls + 1) operation arguments with
  | ok value => exact ⟨_, rfl⟩
  | error cause => exact ⟨_, runFrom_orFail_error _ _ _⟩

/-- Marking rows as deleted sends one update, which writes the instant into the marker field. -/
theorem calls_deleteBy_soft {field : String} (h : service.config.marker = some field)
    (session : Session σ) (physical marking : Operation) (request : Request) :
    (runFrom session (service.deleteBy physical marking request .soft)).2.calls =
      session.calls ++ [.delegate service.delegate.name marking
        (service.markArguments field session.now (service.normalize none request))] := by
  rw [deleteBy, runFrom_bind_ok (service.runFrom_normalized session none request)]
  simp only [h]
  rw [runFrom_bind_ok (runFrom_emit _ _), runFrom_bind_ok (runFrom_get _), calls_call]

/-- A delete in hard mode or without a marker sends the arguments of the request as they are. -/
theorem calls_deleteBy_physical {mode : DeleteMode}
    (h : mode = .hard ∨ service.config.marker = none) (session : Session σ)
    (physical marking : Operation) (request : Request) :
    (runFrom session (service.deleteBy physical marking request mode)).2.calls =
      session.calls ++ [.delegate service.delegate.name physical
        (service.normalize none request)] := by
  rw [deleteBy, runFrom_bind_ok (service.runFrom_normalized session none request)]
  split
  · rename_i field hmarker
    simp [hmarker] at h
  · rw [calls_call]

/-- A service before a delegate that finds nothing. -/
def vacant (marker : Option String) : Service Unit where
  delegate := ⟨"account", fun _ _ _ => .ok .null⟩
  store := ⟨fun _ => .ok [], fun _ => none⟩
  config := { marker }
  stamp _ := "2024-01-01T00:00:00.000Z"

end Service

end RecordQuery
