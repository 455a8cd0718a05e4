import RecordQuery.Proofs.Calls

/-!
# Deletes in a run

With a marker, a delete in soft mode is one update that writes the marker and leaves every other
argument of the request as it is. Otherwise it is one physical delete with the arguments of the
request. No other call deletes, so a run in which every delete is soft never deletes physically.
-/

namespace RecordQuery

open SessionM

variable {σ ρ : Type}

def Operation.deletes : Operation → Bool
  | .delete | .deleteMany => true
  | _ => false

/-- Whether a call deletes rows physically. -/
def Call.deletes : Call → Bool
  | .delegate _ operation _ => operation.deletes
  | _ => false

/-- A delete of one row or of many, as the service of requests is asked for it. -/
structure Deletion where
  many : Bool
  request : Request
  mode : DeleteMode

namespace Deletion

def physical (deletion : Deletion) : Operation := if deletion.many then .deleteMany else .delete

def marking (deletion : Deletion) : Operation := if deletion.many then .updateMany else .update

end Deletion

/-- A step of a run: a call of one of the two services, or time that passes. A computation behind
the cache and an operation that is sent by its name are the caller's own and delete nothing. -/
inductive FacadeStep (σ : Type) where
  | serve (call : ServiceCall)
  | dispatch (operation : Operation) (arguments : Arguments) (harmless : operation.deletes = false)
  | compute (key : Option String) (options : CacheOptions) (producer : Run σ Json)
      (harmless : Sends (·.deletes = false) producer)
  | read (reading : RecordRead) (options : CacheOptions)
  | write (writing : RecordWrite)
  | pass (elapsed : Nat)

namespace FacadeStep

/-- The delete that a step asks the service of requests for. A delete of a record whose condition is
not an object is refused before. -/
def deletion? : FacadeStep σ → Option Deletion
  | serve (.delete request mode) => some ⟨false, request, mode⟩
  | serve (.deleteMany request mode) => some ⟨true, request, mode⟩
  | write (.delete (.ok (.obj fields)) mode) =>
    some ⟨false, .native { condition := some fields }, mode⟩
  | _ => none

/-- What a step leaves, the records being those behind the service. -/
def act (service : Service σ) (record : RecordType ρ) : FacadeStep σ → Session σ → Session σ
  | serve call, session => (runFrom session (call.run service)).2
  | dispatch operation arguments _, session =>
    (runFrom session (service.call operation arguments)).2
  | compute key options producer _, session =>
    (runFrom session (service.withCache key options producer)).2
  | read reading options, session =>
    (runFrom session (reading.run (.ofService service record) options)).2
  | write writing, session => (runFrom session (writing.run (.ofService service record))).2
  | pass elapsed, session => { session with now := session.now + elapsed }

theorem deletes_of_soft {mode : DeleteMode} (hmode : mode = .soft) (field : String)
    (physical : Operation) {marking : Operation} (hmarking : marking.deletes = false) :
    (mode.operation (some field) physical marking).deletes = false := by
  subst hmode
  exact hmarking

theorem deletes_serve (field : String) {call : ServiceCall}
    (h : ∀ deletion ∈ (serve call : FacadeStep σ).deletion?, deletion.mode = .soft) :
    (call.operation (some field)).deletes = false := by
  cases call with
  | delete request mode => exact deletes_of_soft (h _ rfl) field _ rfl
  | deleteMany request mode => exact deletes_of_soft (h _ rfl) field _ rfl
  | _ => rfl

theorem deletes_read (reading : RecordRead) : reading.operation.deletes = false := by
  cases reading <;> rfl

theorem harmless_of_operation {ε α : Type} {name : String} {operation : Operation}
    {computation : SessionM ε σ α} (h : Sends (Call.Of name operation) computation)
    (hdeletes : operation.deletes = false) : Sends (·.deletes = false) computation := by
  intro session
  obtain ⟨sent, hsent, hof⟩ := h session
  refine ⟨sent, hsent, fun call hcall => ?_⟩
  obtain ⟨arguments, rfl⟩ := hof call hcall
  exact hdeletes

variable (service : Service σ) (record : RecordType ρ)

/-- The calls of a delete do not depend on the name under which the service reports them. -/
theorem calls_deleteBy_rename {renamed : Service σ} {name : Option String}
    (hrenamed : renamed = { service with model := name }) (physical marking : Operation)
    (request : Request) (mode : DeleteMode) (session : Session σ) :
    (runFrom session (renamed.deleteBy physical marking request mode)).2.calls =
      (runFrom session (service.deleteBy physical marking request mode)).2.calls := by
  have hconfig : renamed.config = service.config := by rw [hrenamed]
  by_cases hphysical : mode = .hard ∨ service.config.marker = none
  · rw [service.calls_deleteBy_physical hphysical,
      renamed.calls_deleteBy_physical (by rwa [hconfig])]
    subst hrenamed
    rfl
  · obtain ⟨hmode, hmarker⟩ := not_or.mp hphysical
    obtain ⟨field, hfield⟩ := Option.ne_none_iff_exists'.mp hmarker
    cases mode with
    | hard => exact (hmode rfl).elim
    | soft =>
      rw [service.calls_deleteBy_soft hfield, renamed.calls_deleteBy_soft (by rwa [hconfig])]
      subst hrenamed
      rfl

/-- The calls of a delete of a record are those of the delete that it asks the service of requests
for; decoding the answer adds none. -/
theorem calls_delete_record (fields : Fields) (mode : DeleteMode) (session : Session σ) :
    (runFrom session
      ((RecordService.ofService service record).delete (.ok (.obj fields)) mode)).2.calls =
      (runFrom session (service.deleteBy .delete .update
        (.native { condition := some fields }) mode)).2.calls := by
  have hcondition := RecordService.runFrom_condition_obj session fields
  have hdecoded : ∀ value later, (runFrom later
      (RecordService.decoded record value : Run σ ρ)).2.calls = later.calls :=
    fun _ later => Service.calls_orFail later _ _
  rw [RecordService.delete, runFrom_bind_ok hcondition]
  exact (calls_bind_of_silent hdecoded _ _).trans
    (calls_deleteBy_rename service rfl _ _ _ mode session)

/-- A delete of a record that is refused for its condition sends nothing. -/
theorem calls_delete_refused {unique : Payload} (h : ∀ fields, unique ≠ .ok (.obj fields))
    (mode : DeleteMode) (session : Session σ) :
    (runFrom session ((RecordService.ofService service record).delete unique mode)).2.calls =
      session.calls := by
  obtain ⟨error, hrefused⟩ := RecordService.runFrom_condition_refused session h
  rw [RecordService.delete, runFrom_bind_error hrefused]

theorem calls_act_deletion {step : FacadeStep σ} {deletion : Deletion}
    (h : deletion ∈ step.deletion?) (session : Session σ) :
    (step.act service record session).calls = (runFrom session (service.deleteBy
      deletion.physical deletion.marking deletion.request deletion.mode)).2.calls := by
  unfold deletion? at h
  split at h
  · cases h
    rfl
  · cases h
    rfl
  · cases h
    exact calls_delete_record service record _ _ session
  · cases h

/-- With a marker, a step whose delete is soft sends no physical delete. -/
theorem sends_act {field : String} (hmarker : service.config.marker = some field)
    {step : FacadeStep σ} (h : ∀ deletion ∈ step.deletion?, deletion.mode = .soft)
    (session : Session σ) :
    ∃ sent, (step.act service record session).calls = session.calls ++ sent ∧
      ∀ call ∈ sent, call.deletes = false := by
  cases step with
  | serve call =>
    have hcall := call.sends_run service
    rw [hmarker] at hcall
    exact harmless_of_operation hcall (deletes_serve field h) session
  | dispatch operation arguments harmless =>
    have hcall := service.moves_call (frame_adds _) (service.sends_send operation arguments)
    exact harmless_of_operation hcall harmless session
  | compute key options producer harmless =>
    exact service.moves_withCache (frame_adds _) (adds_cache _) key options harmless session
  | read reading options =>
    have hreading := reading.sends_run (.ofService service record) options
    exact harmless_of_operation hreading (deletes_read reading) session
  | write writing =>
    have hwriting := writing.sends_run (.ofService service record)
    rw [show (RecordService.ofService service record).base.config.marker = some field from hmarker]
      at hwriting
    cases writing with
    | create | update | upsert => exact harmless_of_operation hwriting rfl session
    | delete unique mode =>
      by_cases hrefused : ∀ fields, unique ≠ .ok (.obj fields)
      · have hnothing := calls_delete_refused service record hrefused mode session
        exact ⟨[], hnothing.trans (List.append_nil _).symm, by simp⟩
      · obtain ⟨fields, hfields⟩ := Classical.not_forall.mp hrefused
        obtain rfl := Classical.not_not.mp hfields
        exact harmless_of_operation hwriting (deletes_of_soft (h _ rfl) field _ rfl) session
  | pass elapsed => exact ⟨[], by simp [act], by simp⟩

/-- With a marker, a run in which every delete is soft sends no physical delete. -/
theorem sends_runSteps {field : String} (hmarker : service.config.marker = some field)
    {steps : List (FacadeStep σ)}
    (h : ∀ step ∈ steps, ∀ deletion ∈ step.deletion?, deletion.mode = .soft)
    (start : Session σ) :
    ∃ sent, (runSteps (act service record) start steps).calls = start.calls ++ sent ∧
      ∀ call ∈ sent, call.deletes = false := by
  induction steps generalizing start with
  | nil => exact ⟨[], by simp [runSteps], by simp⟩
  | cons step rest ih =>
    obtain ⟨first, hfirst, hfirstHarmless⟩ :=
      sends_act service record hmarker (h step List.mem_cons_self) start
    obtain ⟨more, hmore, hmoreHarmless⟩ :=
      ih (fun other hother => h other (List.mem_cons_of_mem step hother))
        (act service record step start)
    refine ⟨first ++ more, ?_, ?_⟩
    · rw [runSteps_cons, hmore, hfirst, List.append_assoc]
    · intro call hcall
      rcases List.mem_append.mp hcall with hold | hnew
      · exact hfirstHarmless call hold
      · exact hmoreHarmless call hnew

end FacadeStep

open FacadeStep in
/-- A run in which every delete is soft never deletes physically when a marker is configured. In any
run, each delete sends exactly one call: the update that writes the marker and nothing else into the
arguments of the request, or without a marker or in hard mode the physical delete with those
arguments. -/
theorem Service.soft_deletes_mark (service : Service σ) (record : RecordType ρ) (start : Session σ)
    (steps : List (FacadeStep σ)) :
    (∀ field, service.config.marker = some field →
      (∀ step ∈ steps, ∀ deletion ∈ step.deletion?, deletion.mode = .soft) →
      ∃ sent, (runSteps (act service record) start steps).calls = start.calls ++ sent ∧
        ∀ call ∈ sent, call.deletes = false) ∧
    ∀ taken ∈ history (act service record) start steps, ∀ deletion ∈ taken.2.deletion?,
      (∀ field, service.config.marker = some field → deletion.mode = .soft →
        (taken.2.act service record taken.1).calls = taken.1.calls ++
          [.delegate service.delegate.name deletion.marking
            { service.normalize none deletion.request with
              data := some (.obj [(field, .str (service.stamp taken.1.now))]) }]) ∧
      (service.config.marker = none ∨ deletion.mode = .hard →
        (taken.2.act service record taken.1).calls = taken.1.calls ++
          [.delegate service.delegate.name deletion.physical
            (service.normalize none deletion.request)]) := by
  refine ⟨fun field hmarker hsoft => sends_runSteps service record hmarker hsoft start, ?_⟩
  intro taken _ deletion hdeletion
  have hcalls := calls_act_deletion service record hdeletion taken.1
  refine ⟨fun field hmarker hmode => ?_, fun hphysical => ?_⟩
  · rw [hcalls, hmode, service.calls_deleteBy_soft hmarker]
    rfl
  · rw [hcalls, service.calls_deleteBy_physical hphysical.symm]

open FacadeStep in
/-- A delete of a record beside a delete of many rows, whose payload gives way to the marker. -/
theorem Service.soft_deletes_mark_one_and_many :
    let service := vacant (some "deletedAt")
    let record : RecordType Json := ⟨"Account", fun _ => .ok .null⟩
    let steps : List (FacadeStep Unit) :=
      [write (.delete (.ok (.obj [("id", .int 1)])) .soft),
        pass 5,
        serve (.deleteMany (.native { data := some .null, take := some 3 }) .soft)]
    let marked : Json := .obj [("deletedAt", .str "2024-01-01T00:00:00.000Z")]
    service.config.marker = some "deletedAt" ∧
      (∀ step ∈ steps, ∀ deletion ∈ step.deletion?, deletion.mode = .soft) ∧
      (∃ sent, (runSteps (act service record) { cache := () } steps).calls = [] ++ sent ∧
        ∀ call ∈ sent, call.deletes = false) ∧
      (runSteps (act service record) { cache := () } steps).calls =
        [.delegate "account" .update
            { condition := some [("id", .int 1)], data := some marked },
          .delegate "account" .updateMany { take := some 3, data := some marked }] := by
  intro service record steps marked
  have hsoft : ∀ step ∈ steps, ∀ deletion ∈ step.deletion?, deletion.mode = .soft := by
    simp [steps, deletion?]
  exact ⟨rfl, hsoft,
    (soft_deletes_mark service record { cache := () } steps).1 "deletedAt" rfl hsoft, by decide⟩

end RecordQuery
