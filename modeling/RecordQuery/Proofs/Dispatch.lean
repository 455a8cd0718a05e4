import RecordQuery.Proofs.Reads

/-!
# One delegate call for one call

Whatever a call of a service does before and after its one delegate call only reports events and
makes something of the result. So a call ends as the delegate call behind its place does, and what
is decided there holds of every method: when the delegate is asked, whose error is passed on, and
what is left of the cache. A typed call is refused before that if its condition is not an object or
a payload has no JSON form.
-/

namespace RecordQuery

open SessionM

variable {σ ρ : Type}

/-- A call of either service. Raw queries and transactions, which run what the caller brings along,
are left out. -/
inductive FacadeCall where
  | dispatch (operation : Operation) (arguments : Arguments)
  | cached (operation : Operation) (arguments : Arguments) (key : Option String)
      (options : CacheOptions)
  | serve (call : ServiceCall)
  | read (reading : RecordRead) (options : CacheOptions)
  | write (writing : RecordWrite)

inductive Reply (ρ : Type) where
  | value (value : Json)
  | yield (yield : Yield ρ)
  | record (record : ρ)

def FacadeCall.run (service : RecordService σ ρ) : FacadeCall → Run σ (Reply ρ)
  | dispatch operation arguments => return .value (← service.base.call operation arguments)
  | cached operation arguments key options =>
    return .value (← service.base.cachedCall operation arguments key options)
  | serve call => return .value (← call.run service.base)
  | read reading options => return .yield (← reading.run service options)
  | write writing => return .record (← writing.run service)

def FacadeCall.operation (marker : Option String) : FacadeCall → Operation
  | dispatch operation _ | cached operation _ _ _ => operation
  | serve call => call.operation marker
  | read reading _ => reading.operation
  | write writing => writing.operation marker

/-- What a read says about caching. -/
def ServiceCall.options? : ServiceCall → Option CacheOptions
  | findUnique _ options | findFirst _ options | findMany _ options
  | findUniqueWhere _ _ options | findFirstWhere _ _ options | findManyWhere _ _ options
  | aggregate _ options | groupBy _ options => some options
  | create _ | createMany _ | update _ _ | updateMany _ _ | delete _ _ | deleteMany _ _
  | upsert _ => none

def ServiceCall.place? (service : Service σ) (call : ServiceCall) : Option (CachePlace σ) :=
  call.options?.bind fun options => service.place? options.key options

/-- A read of records without a key of its own has the place of its final arguments. -/
def RecordRead.place? (service : Service σ) (reading : RecordRead) (options : CacheOptions) :
    Option (CachePlace σ) :=
  (reading.arguments? service).bind fun arguments =>
    service.place? (some (options.key.getD (cacheKey reading.operation arguments))) options

/-- Where a call looks for its result. A write looks nowhere. -/
def FacadeCall.place? (service : Service σ) : FacadeCall → Option (CachePlace σ)
  | dispatch _ _ | write _ => none
  | cached _ _ key options => service.place? key options
  | serve call => call.place? service
  | read reading options => reading.place? service options

/-- Only an object is a condition. -/
def Payload.IsCondition (unique : Payload) : Prop := ∃ fields, unique = .ok (.obj fields)

theorem Payload.exists_of_isOk {value : Payload} (h : ¬ value.isOk = false) :
    ∃ json, value = .ok json := by
  cases value with
  | ok json => exact ⟨json, rfl⟩
  | error reason => exact absurd rfl h

def RecordWrite.Refused : RecordWrite → Prop
  | create data => data.isOk = false
  | update unique data => ¬ unique.IsCondition ∨ data.isOk = false
  | delete unique _ => ¬ unique.IsCondition
  | upsert unique created updated =>
    ¬ unique.IsCondition ∨ created.isOk = false ∨ updated.isOk = false

/-- The condition of a call is not an object, or one of its payloads has no JSON form. -/
def FacadeCall.Refused : FacadeCall → Prop
  | read (.findUniqueBy unique) _ => ¬ unique.IsCondition
  | write writing => writing.Refused
  | _ => False

theorem SessionM.yields_emit {ε : Type} (events : List Event) :
    Yields (Session.emit events : SessionM ε σ Unit) (.ok ()) :=
  fun session => ⟨session.events ++ events, rfl⟩

theorem Ends.of_events {service : Service σ} {operation : Operation} {arguments : Arguments}
    {session : Session σ} {events : List Event} {place : Option (CachePlace σ)}
    {outcome : Except Failure Json} {later : Session σ}
    (h : Ends service operation arguments { session with events } place outcome later) :
    Ends service operation arguments session place outcome later := by
  have hleft : CachePlace.left place { session with events } = CachePlace.left place session := by
    cases place <;> rfl
  cases h with
  | hit found full calls content => exact .hit found full calls content
  | lookFailed found calls content => exact .lookFailed found calls content
  | callFailed needed answer calls content =>
    exact .callFailed needed answer calls (content.trans hleft)
  | answered needed answer unkept calls content =>
    exact .answered needed answer unkept calls (content.trans hleft)
  | kept needed answer full stored calls content =>
    exact .kept needed answer full stored calls content
  | keepFailed needed answer full stored calls content =>
    exact .keepFailed needed answer full stored calls content

/-- From any session, the computation comes to one call behind a place, what it reports, and what it
makes of the result of that call. -/
def CallsOnce {α : Type} (service : Service σ) (operation : Operation)
    (place : Option (CachePlace σ)) (computation : Run σ α) : Prop :=
  ∀ session, ∃ arguments outcome later,
    Ends service operation arguments session place outcome later ∧
    ∃ next events, runFrom session computation = (outcome >>= next, { later with events })

namespace CallsOnce

variable {α β : Type} {service : Service σ} {operation : Operation} {place : Option (CachePlace σ)}

theorem of_ends {computation : Run σ Json} (arguments : Arguments)
    (h : ∀ session, Ends service operation arguments session place
      (runFrom session computation).1 (runFrom session computation).2) :
    CallsOnce service operation place computation := by
  intro session
  refine ⟨arguments, _, _, h session, pure, (runFrom session computation).2.events, ?_⟩
  rw [bind_pure]

theorem call (arguments : Arguments) :
    CallsOnce service operation none (service.call operation arguments) :=
  of_ends arguments (service.ends_call operation arguments)

theorem cachedCall (arguments : Arguments) (key : Option String) (options : CacheOptions) :
    CallsOnce service operation (service.place? key options)
      (service.cachedCall operation arguments key options) :=
  of_ends arguments fun session => service.ends_cachedCall operation arguments session key options

theorem after {first : Run σ β} {value : β} (hfirst : Yields first (.ok value))
    {rest : β → Run σ α} (h : CallsOnce service operation place (rest value)) :
    CallsOnce service operation place (first >>= rest) := by
  intro session
  obtain ⟨events, hrun⟩ := hfirst session
  obtain ⟨arguments, outcome, later, hends, next, more, hrest⟩ := h { session with events }
  refine ⟨arguments, outcome, _, hends.of_events, next, more, ?_⟩
  rw [runFrom_bind_ok hrun, hrest]

theorem before {computation : Run σ β} (h : CallsOnce service operation place computation)
    {rest : β → Run σ α} {next : β → Except Failure α}
    (hrest : ∀ value, Yields (rest value) (next value)) :
    CallsOnce service operation place (computation >>= rest) := by
  intro session
  obtain ⟨arguments, outcome, later, hends, own, events, hrun⟩ := h session
  obtain ⟨more, hbind⟩ := exists_runFrom_bind hrest session
  refine ⟨arguments, outcome, later, hends, fun value => own value >>= next, more, ?_⟩
  rw [hbind, hrun, bind_assoc]

theorem map {computation : Run σ β} (h : CallsOnce service operation place computation)
    (f : β → α) : CallsOnce service operation place (do return f (← computation)) :=
  h.before fun value => .pure (f value)

/-- A computation may look at the session first. -/
theorem get {rest : Session σ → Run σ α}
    (h : ∀ seen, CallsOnce service operation place (rest seen)) :
    CallsOnce service operation place (get >>= rest) := by
  intro session
  rw [runFrom_bind_ok (runFrom_get session)]
  exact h session session

end CallsOnce

namespace Service

variable (service : Service σ)

theorem yields_normalized (base : Option Fields) (request : Request) :
    Yields (service.normalized base request) (.ok (service.normalize base request)) :=
  fun session => ⟨_, service.runFrom_normalized session base request⟩

theorem callsOnce_deleteBy (physical marking : Operation) (request : Request) (mode : DeleteMode) :
    CallsOnce service (mode.operation service.config.marker physical marking) none
      (service.deleteBy physical marking request mode) := by
  unfold deleteBy
  refine .after (service.yields_normalized none request) ?_
  cases mode with
  | hard => exact .call _
  | soft =>
    cases hmarker : service.config.marker with
    | none => exact .call _
    | some field => exact .after (yields_emit _) (.get fun seen => .call _)

theorem callsOnce_read (operation : Operation) (base : Option Fields) (request : Request)
    (options : CacheOptions) :
    CallsOnce service operation (service.place? options.key options)
      (service.read operation base request options) :=
  .after (service.yields_normalized base request) (.cachedCall _ options.key options)

end Service

theorem ServiceCall.callsOnce_run (service : Service σ) (call : ServiceCall) :
    CallsOnce service (call.operation service.config.marker) (call.place? service)
      (call.run service) := by
  cases call with
  | create request | createMany request => exact .after (yields_emit _) (.call _)
  | update condition request | updateMany condition request =>
    exact .after (yields_emit _) (.call _)
  | delete request mode | deleteMany request mode => exact service.callsOnce_deleteBy _ _ _ _
  | upsert request => exact .after (service.yields_normalized none request) (.call _)
  | _ => exact service.callsOnce_read _ _ _ _

/-- The computation fails before it does anything but report that. -/
def Refuses {α : Type} (computation : Run σ α) : Prop :=
  ∀ session, ∃ error events,
    runFrom session computation = (.error (.invalidRequest error), { session with events })

namespace Refuses

variable {α β : Type}

theorem bind {first : Run σ β} (h : Refuses first) (rest : β → Run σ α) :
    Refuses (first >>= rest) := by
  intro session
  obtain ⟨error, events, hrun⟩ := h session
  exact ⟨error, events, runFrom_bind_error hrun rest⟩

theorem after {first : Run σ β} {value : β} (hfirst : Yields first (.ok value))
    {rest : β → Run σ α} (h : Refuses (rest value)) : Refuses (first >>= rest) := by
  intro session
  obtain ⟨events, hrun⟩ := hfirst session
  obtain ⟨error, more, hrest⟩ := h { session with events }
  exact ⟨error, more, (runFrom_bind_ok hrun rest).trans hrest⟩

end Refuses

namespace RecordService

theorem yields_payload (value : Json) : Yields (payload (.ok value) : Run σ Json) (.ok value) :=
  .pure value

theorem refuses_payload {value : Payload} (h : value.isOk = false) :
    Refuses (payload value : Run σ Json) := by
  intro session
  cases value with
  | ok json => cases h
  | error reason => exact ⟨_, _, Service.runFrom_orFail_error session _ reason⟩

theorem yields_condition (fields : Fields) :
    Yields (condition (.ok (.obj fields)) : Run σ Fields) (.ok fields) :=
  .pure fields

theorem refuses_condition {unique : Payload} (h : ¬ unique.IsCondition) :
    Refuses (condition unique : Run σ Fields) := by
  intro session
  have hrefused : ∀ fields, unique ≠ .ok (.obj fields) := fun fields heq => h ⟨fields, heq⟩
  obtain ⟨error, hrun⟩ := runFrom_condition_refused session hrefused
  exact ⟨error, _, hrun⟩

end RecordService

/-- A read that is refused has no final arguments. -/
theorem RecordRead.arguments?_of_refused (service : Service σ) {reading : RecordRead}
    {options : CacheOptions} (h : (FacadeCall.read reading options).Refused) :
    reading.arguments? service = none := by
  cases reading with
  | findUniqueBy unique =>
    cases harguments : (RecordRead.findUniqueBy unique).arguments? service with
    | none => rfl
    | some arguments =>
      obtain ⟨fields, hunique, -⟩ := RecordRead.exists_of_findUniqueBy harguments
      exact (h ⟨fields, hunique⟩).elim
  | _ => exact h.elim

open RecordService in
theorem RecordWrite.refuses_run (service : RecordService σ ρ) {writing : RecordWrite}
    (h : writing.Refused) : Refuses (writing.run service) := by
  cases writing with
  | create data => exact (refuses_payload h).bind _
  | update unique data =>
    by_cases hunique : unique.IsCondition
    · obtain ⟨fields, rfl⟩ := hunique
      have hdata := h.resolve_left (Classical.not_not.mpr ⟨fields, rfl⟩)
      exact .after (yields_condition fields) ((refuses_payload hdata).bind _)
    · exact (refuses_condition hunique).bind _
  | delete unique mode => exact (refuses_condition h).bind _
  | upsert unique created updated =>
    by_cases hunique : unique.IsCondition
    · obtain ⟨fields, rfl⟩ := hunique
      have hpayloads := h.resolve_left (Classical.not_not.mpr ⟨fields, rfl⟩)
      refine .after (yields_condition fields) ?_
      by_cases hcreated : created.isOk = false
      · exact (refuses_payload hcreated).bind _
      · obtain ⟨first, rfl⟩ := Payload.exists_of_isOk hcreated
        have hupdated := hpayloads.resolve_left hcreated
        exact .after (yields_payload first) ((refuses_payload hupdated).bind _)
    · exact (refuses_condition hunique).bind _

open RecordService in
theorem RecordRead.callsOnce_run (service : RecordService σ ρ) {reading : RecordRead}
    (options : CacheOptions) (h : ¬ (FacadeCall.read reading options).Refused) :
    CallsOnce service.base reading.operation (reading.place? service.base options)
      (reading.run service options) := by
  have hrequest (operation : Operation) (request : Request) :
      CallsOnce service.base operation
        (service.base.place? (some (options.key.getD
          (cacheKey operation (service.base.normalize none request)))) options)
        (service.readRequest operation request options) :=
    .after (service.base.yields_normalized none request) (.cachedCall _ _ options)
  cases reading with
  | findUnique request | findFirst request =>
    exact .map (.before (hrequest _ request) (yields_decodedOptional service.record)) _
  | findUniqueBy unique =>
    obtain ⟨fields, rfl⟩ := Classical.not_not.mp h
    exact .map (.after (yields_condition fields)
      (.before (.cachedCall _ _ options) (yields_decodedOptional service.record))) _
  | findMany request =>
    exact .map (.before (hrequest _ request) (yields_decoded service.listType)) _
  | aggregate request | groupBy request => exact .map (hrequest _ request) _

open RecordService in
theorem RecordWrite.callsOnce_run (service : RecordService σ ρ) {writing : RecordWrite}
    (h : ¬ writing.Refused) :
    CallsOnce service.base (writing.operation service.base.config.marker) none
      (writing.run service) := by
  cases writing with
  | create data =>
    obtain ⟨value, rfl⟩ := Payload.exists_of_isOk h
    exact .after (yields_payload value) (.before (.call _) (yields_decoded service.record))
  | update unique data =>
    obtain ⟨hunique, hdata⟩ := not_or.mp h
    obtain ⟨fields, rfl⟩ := Classical.not_not.mp hunique
    obtain ⟨value, rfl⟩ := Payload.exists_of_isOk hdata
    exact .after (yields_condition fields)
      (.after (yields_payload value) (.before (.call _) (yields_decoded service.record)))
  | delete unique mode =>
    obtain ⟨fields, rfl⟩ := Classical.not_not.mp h
    exact .after (yields_condition fields)
      (.before (service.base.callsOnce_deleteBy _ _ _ mode) (yields_decoded service.record))
  | upsert unique created updated =>
    obtain ⟨hunique, hpayloads⟩ := not_or.mp h
    obtain ⟨hcreated, hupdated⟩ := not_or.mp hpayloads
    obtain ⟨fields, rfl⟩ := Classical.not_not.mp hunique
    obtain ⟨first, rfl⟩ := Payload.exists_of_isOk hcreated
    obtain ⟨second, rfl⟩ := Payload.exists_of_isOk hupdated
    exact .after (yields_condition fields) (.after (yields_payload first)
      (.after (yields_payload second) (.before
        (.after (service.base.yields_normalized none _) (.call _))
        (yields_decoded service.record))))

theorem FacadeCall.callsOnce_run (service : RecordService σ ρ) {call : FacadeCall}
    (h : ¬ call.Refused) :
    CallsOnce service.base (call.operation service.base.config.marker) (call.place? service.base)
      (call.run service) := by
  cases call with
  | dispatch operation arguments => exact .map (.call arguments) _
  | cached operation arguments key options => exact .map (.cachedCall arguments key options) _
  | serve call => exact .map (call.callsOnce_run service.base) _
  | read reading options => exact .map (reading.callsOnce_run service options h) _
  | write writing => exact .map (writing.callsOnce_run service h) _

theorem FacadeCall.refuses_run (service : RecordService σ ρ) {call : FacadeCall}
    (h : call.Refused) : Refuses (call.run service) := by
  cases call with
  | dispatch | cached | serve => exact h.elim
  | read reading options =>
    have harguments := reading.arguments?_of_refused service.base h
    have hrun : Refuses (reading.run service options) := reading.exists_refused harguments options
    exact hrun.bind _
  | write writing => exact (writing.refuses_run service h).bind _

theorem FacadeCall.place?_of_refused (service : Service σ) {call : FacadeCall}
    (h : call.Refused) : call.place? service = none := by
  cases call with
  | dispatch | cached | serve => exact h.elim
  | read reading options =>
    simp [place?, RecordRead.place?, reading.arguments?_of_refused service h]
  | write writing => rfl

/-- A call hands at most one call to the delegate, that of its own operation, and none exactly when
it is refused or its place settles it. The error of the delegate ends it, with the cache as looking
left it; so does an error of the cache, in looking or in keeping. A call without a place, as every
write is, leaves the cache as it was. The adapter may be any, and so one that remembers what it is
asked for. -/
theorem FacadeCall.dispatches_once (service : RecordService σ ρ) (call : FacadeCall)
    (session : Session σ) :
    let operation := call.operation service.base.config.marker
    let place := call.place? service.base
    let before := session.calls
    let sent (arguments : Arguments) :=
      before ++ [.delegate service.base.delegate.name operation arguments]
    let answer := service.base.delegate.answer (session.delegateCalls + 1) operation
    let outcome := (runFrom session (call.run service)).1
    let after := (runFrom session (call.run service)).2
    (after.calls = before ∨ ∃ arguments, after.calls = sent arguments) ∧
      (after.calls = before ↔ call.Refused ∨ ∃ found ∈ place, found.Settles session) ∧
      (∀ arguments error, after.calls = sent arguments → answer arguments = .error error →
        outcome = .error (.database error) ∧ after.cache = CachePlace.left place session) ∧
      (∀ found ∈ place, ∀ error, (found.look session).1 = .error error →
        outcome = .error (.cache error)) ∧
      (∀ found ∈ place, ∀ arguments value error, after.calls = sent arguments →
        answer arguments = .ok value → value.isNull = false →
        (found.keep session.now value (found.look session).2).1 = .error error →
          outcome = .error (.cache error)) ∧
      (place = none → after.cache = session.cache) := by
  intro operation place before sent answer outcome after
  have hne (arguments : Arguments) : sent arguments ≠ before := by simp [sent]
  by_cases hrefused : call.Refused
  · obtain ⟨error, events, hrun⟩ := call.refuses_run service hrefused session
    have hplace : place = none := call.place?_of_refused service.base hrefused
    have hcalls : after.calls = before := by simp only [after, before, hrun]
    have hcache : after.cache = session.cache := by simp only [after, hrun]
    have hunsent (arguments : Arguments) : after.calls ≠ sent arguments := by
      rw [hcalls]
      exact (hne arguments).symm
    refine ⟨.inl hcalls, iff_of_true hcalls (.inl hrefused), ?_, ?_, ?_, fun _ => hcache⟩
    · exact fun arguments error hsent => (hunsent arguments hsent).elim
    · simp [hplace]
    · simp [hplace]
  · obtain ⟨arguments, result, later, hends, next, events, hrun⟩ :=
      call.callsOnce_run service hrefused session
    change Ends service.base operation arguments session place result later at hends
    have hafter : after.calls = later.calls ∧ after.cache = later.cache := by
      simp only [after, hrun, and_self]
    have houtcome : outcome = result >>= next := by simp only [outcome, hrun]
    have hsame {other : Arguments} (hsent : after.calls = sent other) :
        other = arguments ∧ later.calls ≠ session.calls := by
      rw [hafter.1] at hsent
      rcases hends.calls_eq with ⟨-, hcalls⟩ | ⟨-, hcalls⟩
      · exact (hne other (hsent.symm.trans hcalls)).elim
      · have hcall : sent other = sent arguments := hsent.symm.trans hcalls
        refine ⟨by simpa [sent] using hcall, fun heq => hne other (hsent.symm.trans heq)⟩
    refine ⟨?_, ?_, ?_, ?_, ?_, ?_⟩
    · rw [hafter.1]
      rcases hends.calls_eq with ⟨-, hcalls⟩ | ⟨-, hcalls⟩
      · exact .inl hcalls
      · exact .inr ⟨arguments, hcalls⟩
    · rw [hafter.1]
      rcases hends.calls_eq with ⟨hsettled, hcalls⟩ | ⟨hneeded, hcalls⟩
      · exact iff_of_true hcalls (.inr hsettled)
      · refine iff_of_false (fun heq => hne arguments (hcalls.symm.trans heq)) ?_
        rintro (h | ⟨found, hfound, hsettles⟩)
        · exact hrefused h
        · exact hneeded found hfound hsettles
    · intro other error hsent hanswer
      obtain ⟨rfl, hcalls⟩ := hsame hsent
      obtain ⟨rfl, hcache⟩ := hends.of_answer_error hcalls hanswer
      exact ⟨houtcome, hafter.2.trans hcache⟩
    · intro found hfound error hlook
      rw [Option.mem_def.mp hfound] at hends
      obtain rfl := hends.of_look_error hlook
      exact houtcome
    · intro found hfound other value error hsent hanswer hfull hkeep
      obtain ⟨rfl, hcalls⟩ := hsame hsent
      rw [Option.mem_def.mp hfound] at hends
      obtain rfl := hends.of_keep_error hcalls hanswer hfull hkeep
      exact houtcome
    · intro hplace
      rw [hplace] at hends
      exact hafter.2.trans hends.cache_eq

/-- A cache that finds nothing and refuses to keep anything, and remembers what it was asked for. -/
def CacheAdapter.refusing : CacheAdapter (List String) where
  get _ _ asked := (.ok none, asked ++ ["get"])
  set _ _ _ _ asked := (.error (.refused "full"), asked ++ ["set"])
  del _ asked := (.ok (), asked ++ ["del"])

/-- A read whose answer cannot be kept fails after its one call. -/
theorem FacadeCall.dispatches_once_before_refusal :
    let service : RecordService (List String) Json :=
      ⟨{ delegate := ⟨"account", fun _ _ _ => .ok (.str "found")⟩
         store := ⟨fun _ => .ok [], fun _ => none⟩
         config := { cache := some .refusing }
         stamp _ := "2024-01-01T00:00:00.000Z" }, ⟨"Account", Doc.value⟩⟩
    let call : FacadeCall := .serve (.findMany (.native {}) { key := some "all" })
    let ran := runFrom { cache := [] } (call.run service)
    ran.2.calls = [.delegate "account" .findMany {}] ∧ ran.2.cache = ["get", "set"] ∧
      ran.1 = .error (.cache (.refused "full")) := by
  intro service call ran
  have hcalls : ran.2.calls = [.delegate "account" .findMany {}] := rfl
  obtain ⟨-, -, -, -, hkeep, -⟩ := call.dispatches_once service { cache := [] }
  refine ⟨hcalls, rfl, ?_⟩
  exact hkeep _ rfl _ (.str "found") (.refused "full") hcalls rfl rfl rfl

end RecordQuery
