import RecordQuery.Proofs.Runs
import RecordQuery.Service.Records

/-!
# Calls of the services

A call is a method of a service with its arguments; raw queries and transactions, which run what the
caller brings along, are left out. What holds between the sessions before and after of every call
follows from what holds for handing a call to the delegate and, where a result is read, for changing
the cache. So every call of a service sends its own operation only. A history lists the steps of a
run, each with the session from which it is taken.
-/

namespace RecordQuery

open SessionM

variable {σ ρ : Type}

/-- A call of the service of requests. -/
inductive ServiceCall where
  | create (request : Request)
  | createMany (request : Request)
  | findUnique (request : Request) (options : CacheOptions)
  | findFirst (request : Request) (options : CacheOptions)
  | findMany (request : Request) (options : CacheOptions)
  | findUniqueWhere (base : Fields) (request : Request) (options : CacheOptions)
  | findFirstWhere (base : Fields) (request : Request) (options : CacheOptions)
  | findManyWhere (base : Fields) (request : Request) (options : CacheOptions)
  | aggregate (request : Request) (options : CacheOptions)
  | groupBy (request : Request) (options : CacheOptions)
  | update (condition : Option Fields) (request : Request)
  | updateMany (condition : Option Fields) (request : Request)
  | delete (request : Request) (mode : DeleteMode)
  | deleteMany (request : Request) (mode : DeleteMode)
  | upsert (request : Request)

/-- A call that reads records of one type. -/
inductive RecordRead where
  | findUnique (request : Request)
  | findUniqueBy (unique : Payload)
  | findFirst (request : Request)
  | findMany (request : Request)
  | aggregate (request : Request)
  | groupBy (request : Request)

/-- What a read of records yields. -/
inductive Yield (ρ : Type) where
  | optional (record : Option ρ)
  | list (records : List ρ)
  | value (value : Json)

/-- A call that writes records of one type. -/
inductive RecordWrite where
  | create (data : Payload)
  | update (unique data : Payload)
  | delete (unique : Payload) (mode : DeleteMode)
  | upsert (unique created updated : Payload)

def ServiceCall.run (service : Service σ) : ServiceCall → Run σ Json
  | create request => service.create request
  | createMany request => service.createMany request
  | findUnique request options => service.findUnique request options
  | findFirst request options => service.findFirst request options
  | findMany request options => service.findMany request options
  | findUniqueWhere base request options => service.findUniqueWhere base request options
  | findFirstWhere base request options => service.findFirstWhere base request options
  | findManyWhere base request options => service.findManyWhere base request options
  | aggregate request options => service.aggregate request options
  | groupBy request options => service.groupBy request options
  | update condition request => service.update condition request
  | updateMany condition request => service.updateMany condition request
  | delete request mode => service.delete request mode
  | deleteMany request mode => service.deleteMany request mode
  | upsert request => service.upsert request

def RecordRead.run (service : RecordService σ ρ) (options : CacheOptions) :
    RecordRead → Run σ (Yield ρ)
  | findUnique request => return .optional (← service.findUnique request options)
  | findUniqueBy unique => return .optional (← service.findUniqueBy unique options)
  | findFirst request => return .optional (← service.findFirst request options)
  | findMany request => return .list (← service.findMany request options)
  | aggregate request => return .value (← service.aggregate request options)
  | groupBy request => return .value (← service.groupBy request options)

def RecordWrite.run (service : RecordService σ ρ) : RecordWrite → Run σ ρ
  | create data => service.create data
  | update unique data => service.update unique data
  | delete unique mode => service.delete unique mode
  | upsert unique created updated => service.upsert unique created updated

/-- The operation that a delete becomes: the marking one when that is asked for and a marker is
configured. -/
def DeleteMode.operation (mode : DeleteMode) (marker : Option String)
    (physical marking : Operation) : Operation :=
  match mode, marker with
  | .soft, some _ => marking
  | _, _ => physical

/-- The operation that a call sends. -/
def ServiceCall.operation (marker : Option String) : ServiceCall → Operation
  | create _ => .create
  | createMany _ => .createMany
  | findUnique .. | findUniqueWhere .. => .findUnique
  | findFirst .. | findFirstWhere .. => .findFirst
  | findMany .. | findManyWhere .. => .findMany
  | aggregate .. => .aggregate
  | groupBy .. => .groupBy
  | update .. => .update
  | updateMany .. => .updateMany
  | delete _ mode => mode.operation marker .delete .update
  | deleteMany _ mode => mode.operation marker .deleteMany .updateMany
  | upsert _ => .upsert

def RecordRead.operation : RecordRead → Operation
  | findUnique _ | findUniqueBy _ => .findUnique
  | findFirst _ => .findFirst
  | findMany _ => .findMany
  | aggregate _ => .aggregate
  | groupBy _ => .groupBy

def RecordWrite.operation (marker : Option String) : RecordWrite → Operation
  | create _ => .create
  | update .. => .update
  | delete _ mode => mode.operation marker .delete .update
  | upsert .. => .upsert

namespace SessionM

variable {ε α β : Type} {R : Session σ → Session σ → Prop}

/-- A relation between the sessions before and after, which composes along a sequence and does not
look at the events. -/
structure Frame (R : Session σ → Session σ → Prop) : Prop where
  trans : ∀ {first second third}, R first second → R second third → R first third
  events : ∀ session events, R session { session with events }

/-- A run of the computation leads from any session to a related one. -/
def Moves (R : Session σ → Session σ → Prop) (computation : SessionM ε σ α) : Prop :=
  ∀ session, R session (runFrom session computation).2

theorem Moves.pure (frame : Frame R) (value : α) : Moves R (pure value : SessionM ε σ α) :=
  fun session => frame.events session session.events

theorem Moves.bind (frame : Frame R) {first : SessionM ε σ α} {rest : α → SessionM ε σ β}
    (hfirst : Moves R first) (hrest : ∀ value, Moves R (rest value)) :
    Moves R (first >>= rest) := by
  intro session
  have hmoved := hfirst session
  rw [runFrom_bind]
  cases hrun : runFrom session first with
  | mk outcome later =>
    rw [hrun] at hmoved
    cases outcome with
    | error cause => exact hmoved
    | ok value => exact frame.trans hmoved (hrest value later)

theorem Moves.map (frame : Frame R) {computation : SessionM ε σ α} (h : Moves R computation)
    (f : α → β) : Moves R (do return f (← computation)) :=
  .bind frame h fun _ => .pure frame _

theorem moves_emit (frame : Frame R) (events : List Event) :
    Moves R (Session.emit events : SessionM ε σ Unit) :=
  fun session => frame.events session _

/-- The calls before are kept, and only allowed ones are added. -/
def Adds (allowed : Call → Prop) (before after : Session σ) : Prop :=
  ∃ sent, after.calls = before.calls ++ sent ∧ ∀ call ∈ sent, allowed call

theorem frame_adds (allowed : Call → Prop) :
    Frame (Adds allowed : Session σ → Session σ → Prop) where
  trans := by
    rintro first second third ⟨sent, hsent, hallowed⟩ ⟨more, hmore, hmoreAllowed⟩
    refine ⟨sent ++ more, by rw [hmore, hsent, List.append_assoc], ?_⟩
    intro call hcall
    rcases List.mem_append.mp hcall with hold | hnew
    · exact hallowed call hold
    · exact hmoreAllowed call hnew
  events session events := ⟨[], by simp, by simp⟩

theorem adds_cache (allowed : Call → Prop) (session : Session σ) (content : σ) :
    Adds allowed session { session with cache := content } :=
  ⟨[], by simp, by simp⟩

/-- From any session, only allowed calls are sent. -/
def Sends (allowed : Call → Prop) (computation : SessionM ε σ α) : Prop :=
  Moves (Adds allowed) computation

end SessionM

namespace Service

variable {α ε : Type} {R : Session σ → Session σ → Prop} (frame : Frame R)

section

include frame

theorem moves_fail (failure : Failure) : Moves R (fail failure : Run σ α) := by
  intro session
  rw [runFrom_fail]
  exact frame.events session _

theorem moves_orFail (wrap : ε → Failure) (result : Except ε α) :
    Moves R (orFail wrap result : Run σ α) := by
  cases result with
  | ok value => exact .pure frame value
  | error cause => exact moves_fail frame (wrap cause)

variable (service : Service σ)

theorem moves_call {operation : Operation} {arguments : Arguments}
    (hsend : Moves R (service.send operation arguments)) :
    Moves R (service.call operation arguments) :=
  .bind frame hsend fun _ => moves_orFail frame _ _

theorem moves_normalized (base : Option Fields) (request : Request) :
    Moves R (service.normalized base request) :=
  .bind frame (moves_emit frame _) fun _ => .pure frame _

theorem moves_createBy {operation : Operation}
    (hsend : ∀ arguments, Moves R (service.send operation arguments)) (request : Request) :
    Moves R (service.createBy operation request) :=
  .bind frame (moves_emit frame _) fun _ => service.moves_call frame (hsend _)

theorem moves_updateBy {operation : Operation}
    (hsend : ∀ arguments, Moves R (service.send operation arguments)) (base : Option Fields)
    (request : Request) : Moves R (service.updateBy operation base request) :=
  .bind frame (moves_emit frame _) fun _ => service.moves_call frame (hsend _)

theorem moves_upsert (hsend : ∀ arguments, Moves R (service.send .upsert arguments))
    (request : Request) : Moves R (service.upsert request) :=
  .bind frame (service.moves_normalized frame none request) fun arguments =>
    service.moves_call frame (hsend arguments)

theorem moves_deleteBy {physical marking : Operation} {mode : DeleteMode}
    (hsend : ∀ arguments,
      Moves R (service.send (mode.operation service.config.marker physical marking) arguments))
    (request : Request) : Moves R (service.deleteBy physical marking request mode) := by
  unfold deleteBy
  unfold DeleteMode.operation at hsend
  refine .bind frame (service.moves_normalized frame none request) fun arguments => ?_
  split
  · rename_i field hmarker
    rw [hmarker] at hsend
    have hget : Moves R (get : Run σ (Session σ)) := fun session =>
      frame.events session session.events
    exact .bind frame (moves_emit frame _) fun _ => .bind frame hget fun _ =>
      service.moves_call frame (hsend _)
  · rename_i hphysical
    apply service.moves_call frame
    split at hsend
    · rename_i field hmarker
      exact (hphysical field rfl hmarker).elim
    · exact hsend arguments

variable (hcache : ∀ session content, R session { session with cache := content })

include hcache

/-- Reading or writing the cache, which may change it, and going on with what that gives. -/
theorem moves_cached {β : Type} {look : Session σ → β × σ} {rest : β → SessionM ε σ α}
    (hrest : ∀ found, Moves R (rest found)) :
    Moves R (do
      let session ← get
      let (found, content) := look session
      set { session with cache := content }
      rest found) := by
  intro session
  exact frame.trans (hcache session (look session).2)
    (hrest (look session).1 { session with cache := (look session).2 })

theorem moves_lookUp (key : Option String) (options : CacheOptions) :
    Moves R (service.lookUp key options) := by
  unfold lookUp
  split
  · split
    · exact .bind frame (moves_emit frame _) fun _ => .pure frame _
    · refine moves_cached frame hcache fun found =>
        .bind frame (moves_orFail frame _ found) fun value => ?_
      split
      · exact .bind frame (moves_emit frame _) fun _ => .pure frame _
      · exact .bind frame (moves_emit frame _) fun _ => .pure frame _
  · exact .pure frame _

theorem moves_keep (key : Option String) (options : CacheOptions) (value : Json) :
    Moves R (service.keep key options value) := by
  unfold keep
  split
  · split
    · exact .pure frame _
    · exact moves_cached frame hcache fun stored =>
        .bind frame (moves_orFail frame _ stored) fun _ => .pure frame _
  · exact .pure frame _

theorem moves_withCache (key : Option String) (options : CacheOptions) {producer : Run σ Json}
    (h : Moves R producer) : Moves R (service.withCache key options producer) := by
  refine .bind frame (service.moves_lookUp frame hcache key options) fun found => ?_
  split
  · exact .pure frame _
  · exact .bind frame h fun value => service.moves_keep frame hcache key options value

theorem moves_cachedCall {operation : Operation} {arguments : Arguments}
    (hsend : Moves R (service.send operation arguments)) (key : Option String)
    (options : CacheOptions) : Moves R (service.cachedCall operation arguments key options) :=
  service.moves_withCache frame hcache key options (service.moves_call frame hsend)

theorem moves_read {operation : Operation}
    (hsend : ∀ arguments, Moves R (service.send operation arguments)) (base : Option Fields)
    (request : Request) (options : CacheOptions) :
    Moves R (service.read operation base request options) :=
  .bind frame (service.moves_normalized frame base request) fun arguments =>
    service.moves_cachedCall frame hcache (hsend arguments) options.key options

end

end Service

theorem ServiceCall.moves_run {R : Session σ → Session σ → Prop} (frame : Frame R)
    (hcache : ∀ session content, R session { session with cache := content })
    (service : Service σ) (call : ServiceCall)
    (hsend : ∀ arguments,
      Moves R (service.send (call.operation service.config.marker) arguments)) :
    Moves R (call.run service) := by
  cases call with
  | create | createMany => exact service.moves_createBy frame hsend _
  | findUnique | findFirst | findMany | findUniqueWhere | findFirstWhere | findManyWhere
  | aggregate | groupBy => exact service.moves_read frame hcache hsend _ _ _
  | update | updateMany => exact service.moves_updateBy frame hsend _ _
  | delete | deleteMany => exact service.moves_deleteBy frame hsend _
  | upsert => exact service.moves_upsert frame hsend _

namespace RecordService

variable {α : Type} {R : Session σ → Session σ → Prop} (frame : Frame R)

theorem runFrom_condition_obj (session : Session σ) (fields : Fields) :
    runFrom session (condition (.ok (.obj fields)) : Run σ Fields) = (.ok fields, session) :=
  rfl

/-- Whatever is no object is no condition: the call fails before anything else is done. -/
theorem runFrom_condition_refused (session : Session σ) {unique : Payload}
    (h : ∀ fields, unique ≠ .ok (.obj fields)) :
    ∃ error, runFrom session (condition unique : Run σ Fields) =
      (.error (.invalidRequest error),
        { session with events := session.events ++ [.failed (.invalidRequest error)] }) := by
  cases unique with
  | error reason =>
    have hpayload := Service.runFrom_fail (α := Json) session (.invalidRequest (.ofMessage reason))
    exact ⟨.ofMessage reason, runFrom_bind_error hpayload _⟩
  | ok value =>
    have hother : ∀ fields, value ≠ .obj fields := fun fields hvalue => h fields (by rw [hvalue])
    refine ⟨.notCondition value, ?_⟩
    have hpayload : runFrom session (payload (.ok value) : Run σ Json) = (.ok value, session) := rfl
    rw [condition, runFrom_bind_ok hpayload]
    split
    · rename_i fields
      exact (hother fields rfl).elim
    · exact Service.runFrom_fail session _

include frame

theorem moves_condition (unique : Payload) : Moves R (condition unique : Run σ Fields) := by
  refine .bind frame (Service.moves_orFail frame _ unique) fun value => ?_
  cases value with
  | obj fields => exact .pure frame _
  | _ => exact Service.moves_fail frame _

theorem moves_decoded (type : RecordType α) (value : Json) :
    Moves R (decoded type value : Run σ α) :=
  Service.moves_orFail frame _ _

theorem moves_decodedOptional (type : RecordType α) (value : Json) :
    Moves R (decodedOptional type value : Run σ (Option α)) := by
  unfold decodedOptional
  split
  · exact .pure frame _
  · exact .map frame (moves_decoded frame type value) _

end RecordService

open RecordService in
theorem RecordRead.moves_run {R : Session σ → Session σ → Prop} (frame : Frame R)
    (hcache : ∀ session content, R session { session with cache := content })
    (service : RecordService σ ρ) (options : CacheOptions) (read : RecordRead)
    (hsend : ∀ arguments, Moves R (service.base.send read.operation arguments)) :
    Moves R (read.run service options) := by
  have hread : ∀ request, Moves R (service.readRequest read.operation request options) :=
    fun request => .bind frame (service.base.moves_normalized frame none request) fun arguments =>
      service.base.moves_cachedCall frame hcache (hsend arguments) _ options
  cases read with
  | findUnique request | findFirst request =>
    exact .map frame (.bind frame (hread request) fun value =>
      moves_decodedOptional frame _ value) _
  | findUniqueBy unique =>
    exact .map frame (.bind frame (moves_condition frame unique) fun fields =>
      .bind frame (service.base.moves_cachedCall frame hcache (hsend _) _ options) fun value =>
        moves_decodedOptional frame _ value) _
  | findMany request =>
    exact .map frame (.bind frame (hread request) fun value => moves_decoded frame _ value) _
  | aggregate request | groupBy request => exact .map frame (hread request) _

open RecordService in
theorem RecordWrite.moves_run {R : Session σ → Session σ → Prop} (frame : Frame R)
    (service : RecordService σ ρ) (write : RecordWrite)
    (hsend : ∀ arguments,
      Moves R (service.base.send (write.operation service.base.config.marker) arguments)) :
    Moves R (write.run service) := by
  have hcall := fun arguments => service.base.moves_call frame (hsend arguments)
  cases write with
  | create data =>
    exact .bind frame (Service.moves_orFail frame _ data) fun value =>
      .bind frame (hcall _) fun result => moves_decoded frame _ result
  | update unique data =>
    exact .bind frame (moves_condition frame unique) fun fields =>
      .bind frame (Service.moves_orFail frame _ data) fun value =>
        .bind frame (hcall _) fun result => moves_decoded frame _ result
  | delete unique mode =>
    exact .bind frame (moves_condition frame unique) fun fields =>
      .bind frame (service.base.moves_deleteBy frame hsend _) fun result =>
        moves_decoded frame _ result
  | upsert unique create update =>
    exact .bind frame (moves_condition frame unique) fun fields =>
      .bind frame (Service.moves_orFail frame _ create) fun created =>
        .bind frame (Service.moves_orFail frame _ update) fun updated =>
          .bind frame (service.base.moves_upsert frame hsend _) fun result =>
            moves_decoded frame _ result

/-- The calls of one operation. -/
def Call.Of (name : String) (operation : Operation) (call : Call) : Prop :=
  ∃ arguments, call = .delegate name operation arguments

theorem Service.sends_send (service : Service σ) (operation : Operation) (arguments : Arguments) :
    Sends (Call.Of service.delegate.name operation) (service.send operation arguments) := by
  intro session
  rw [Service.runFrom_send]
  exact ⟨[.delegate service.delegate.name operation arguments], rfl, by simp [Call.Of]⟩

theorem ServiceCall.sends_run (service : Service σ) (call : ServiceCall) :
    Sends (Call.Of service.delegate.name (call.operation service.config.marker))
      (call.run service) :=
  call.moves_run (frame_adds _) (adds_cache _) service
    (service.sends_send _)

theorem RecordRead.sends_run (service : RecordService σ ρ) (options : CacheOptions)
    (read : RecordRead) :
    Sends (Call.Of service.base.delegate.name read.operation) (read.run service options) :=
  read.moves_run (frame_adds _) (adds_cache _) service options
    (service.base.sends_send _)

theorem RecordWrite.sends_run (service : RecordService σ ρ) (write : RecordWrite) :
    Sends (Call.Of service.base.delegate.name (write.operation service.base.config.marker))
      (write.run service) :=
  write.moves_run (frame_adds _) service (service.base.sends_send _)

variable {α : Type} (act : α → Session σ → Session σ)

/-- The steps of a run, each with the session from which it is taken. -/
def history : Session σ → List α → List (Session σ × α)
  | _, [] => []
  | session, step :: rest => (session, step) :: history (act step session) rest

/-- The session that a run leaves. -/
def runSteps (session : Session σ) (steps : List α) : Session σ :=
  steps.foldl (fun session step => act step session) session

@[simp] theorem runSteps_cons (session : Session σ) (step : α) (rest : List α) :
    runSteps act session (step :: rest) = runSteps act (act step session) rest :=
  rfl

theorem runSteps_append (session : Session σ) (steps more : List α) :
    runSteps act session (steps ++ more) = runSteps act (runSteps act session steps) more :=
  List.foldl_append

theorem history_append (session : Session σ) (steps more : List α) :
    history act session (steps ++ more) =
      history act session steps ++ history act (runSteps act session steps) more := by
  induction steps generalizing session with
  | nil => rfl
  | cons step rest ih => exact congrArg ((session, step) :: ·) (ih (act step session))

/-- What comes before a step of a history is a history that leads to the session of the step. -/
theorem exists_of_history_eq {session : Session σ} {steps : List α}
    {older later : List (Session σ × α)} {taken : Session σ × α}
    (h : history act session steps = older ++ taken :: later) :
    ∃ earlier, older = history act session earlier ∧ taken.1 = runSteps act session earlier := by
  induction steps generalizing session older with
  | nil => simp [history] at h
  | cons step rest ih =>
    cases older with
    | nil =>
      obtain ⟨rfl, -⟩ := List.cons.inj h
      exact ⟨[], rfl, rfl⟩
    | cons first others =>
      obtain ⟨rfl, hrest⟩ := List.cons.inj h
      obtain ⟨earlier, rfl, hsession⟩ := ih hrest
      exact ⟨step :: earlier, rfl, hsession⟩

end RecordQuery
