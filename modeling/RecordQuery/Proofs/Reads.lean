import RecordQuery.Proofs.Calls
import RecordQuery.Proofs.Outcomes

/-!
# Reads behind the memory cache

A read looks for a live value under its key, unless it is forced to refresh. With one it is served
without any call. Otherwise it asks the delegate once, and keeps an answer that is not null. A read
of records decodes what it is served.
-/

namespace RecordQuery

open SessionM

variable {ρ : Type}

namespace MemoryCache

/-- What a read finds under its key, and the content that looking for it leaves. -/
def look (forced : Bool) (now : Instant) (key : String) (cache : MemoryCache) :
    Option Json × MemoryCache :=
  if forced then (none, cache)
  else ((cache.get now key).1.filter (!·.isNull), (cache.get now key).2)

theorem exists_of_look {forced : Bool} {now : Instant} {key : String} {cache : MemoryCache}
    {value : Json} (h : (cache.look forced now key).1 = some value) :
    forced = false ∧ value.isNull = false ∧ ∃ entry, cache.find? key = some entry ∧
      entry.value = value ∧ entry.isExpired now = false := by
  cases forced with
  | true => cases h
  | false =>
    obtain ⟨hfound, hvalue⟩ := Option.filter_eq_some_iff.mp h
    refine ⟨rfl, by simpa using hvalue, ?_⟩
    unfold get at hfound
    cases hentry : cache.find? key with
    | none => simp [hentry] at hfound
    | some entry =>
      cases hexpired : entry.isExpired now with
      | true => simp [hentry, hexpired] at hfound
      | false =>
        have hkept : entry.value = value := by simpa [hentry, hexpired] using hfound
        exact ⟨entry, rfl, hkept, hexpired⟩

theorem look_content (forced : Bool) (now : Instant) (key : String) (cache : MemoryCache) :
    (cache.look forced now key).2 = cache ∨ (cache.look forced now key).2 = cache.erase key := by
  cases forced with
  | true => exact .inl rfl
  | false =>
    have hleft : (cache.look false now key).2 = (cache.get now key).2 := rfl
    rw [hleft]
    unfold get
    split
    · exact .inl rfl
    · split
      · exact .inr rfl
      · exact .inl rfl

end MemoryCache

namespace Service

variable (service : Service MemoryCache)

/-- How long an answer to a call is kept. -/
def lifetime (options : CacheOptions) : Option Lifetime :=
  options.lifetime <|> service.config.lifetime

end Service

/-- How a call is served from behind the memory cache, and what is left of calls and cache. -/
inductive Served (service : Service MemoryCache) (operation : Operation) (arguments : Arguments)
    (options : CacheOptions) (session : Session MemoryCache) :
    Except Failure Json → Session MemoryCache → Prop where
  | hit {value : Json} {later : Session MemoryCache}
      (found : (session.cache.look options.forceRefresh session.now
        (cacheKey operation arguments)).1 = some value)
      (calls : later.calls = session.calls)
      (content : later.cache = (session.cache.look options.forceRefresh session.now
        (cacheKey operation arguments)).2) :
      Served service operation arguments options session (.ok value) later
  | failed {error : DatabaseError} {later : Session MemoryCache}
      (answer : service.delegate.answer (session.delegateCalls + 1) operation arguments =
        .error error)
      (calls : later.calls =
        session.calls ++ [.delegate service.delegate.name operation arguments])
      (content : later.cache = (session.cache.look options.forceRefresh session.now
        (cacheKey operation arguments)).2) :
      Served service operation arguments options session (.error (.database error)) later
  | answered {value : Json} {later : Session MemoryCache}
      (answer : service.delegate.answer (session.delegateCalls + 1) operation arguments =
        .ok value)
      (calls : later.calls =
        session.calls ++ [.delegate service.delegate.name operation arguments])
      (content : later.cache =
        let left := (session.cache.look options.forceRefresh session.now
          (cacheKey operation arguments)).2
        if value.isNull then left
        else left.insert (cacheKey operation arguments)
          ⟨value, MemoryCache.expiry session.now (service.lifetime options)⟩) :
      Served service operation arguments options session (.ok value) later

variable {service : Service MemoryCache} {operation : Operation} {arguments : Arguments}
  {options : CacheOptions} {session : Session MemoryCache}

/-- Events make no difference to how a call is served. -/
theorem Served.of_events {events more : List Event} {outcome : Except Failure Json}
    {later : Session MemoryCache}
    (h : Served service operation arguments options { session with events } outcome later) :
    Served service operation arguments options session outcome { later with events := more } := by
  cases h with
  | hit found calls content => exact .hit found calls content
  | failed answer calls content => exact .failed answer calls content
  | answered answer calls content => exact .answered answer calls content

/-- The memory cache never fails to look. -/
theorem CachePlace.exists_look_eq {place : CachePlace MemoryCache}
    (hadapter : place.adapter = MemoryCache.adapter) (session : Session MemoryCache) :
    ∃ found, place.look session =
        (.ok found, (session.cache.look place.forced session.now place.key).2) ∧
      found.filter (!·.isNull) = (session.cache.look place.forced session.now place.key).1 := by
  unfold look MemoryCache.look
  rw [hadapter]
  cases place.forced with
  | true => exact ⟨none, rfl, rfl⟩
  | false => exact ⟨(session.cache.get session.now place.key).1, rfl, rfl⟩

/-- It keeps what it is given for as long as the clock can tell. -/
theorem CachePlace.keep_eq {place : CachePlace MemoryCache}
    (hadapter : place.adapter = MemoryCache.adapter) {now : Instant}
    (hlifetime : (MemoryCache.expiry now place.lifetime).all (· < MemoryCache.clockEnd))
    (value : Json) (content : MemoryCache) :
    place.keep now value content =
      (.ok (), content.insert place.key ⟨value, MemoryCache.expiry now place.lifetime⟩) := by
  have hset := MemoryCache.set_eq_ok hlifetime place.key value content
  unfold keep
  rw [hadapter]
  simp only [MemoryCache.adapter, hset]

theorem Service.served_cachedCall (hcache : service.config.cache = some MemoryCache.adapter)
    (hlifetime : (MemoryCache.expiry session.now (service.lifetime options)).all
      (· < MemoryCache.clockEnd)) :
    Served service operation arguments options session
      (runFrom session (service.cachedCall operation arguments
        (some (cacheKey operation arguments)) options)).1
      (runFrom session (service.cachedCall operation arguments
        (some (cacheKey operation arguments)) options)).2 := by
  let place : CachePlace MemoryCache := ⟨MemoryCache.adapter, cacheKey operation arguments,
    options.forceRefresh, service.lifetime options⟩
  have hplace : service.place? (some (cacheKey operation arguments)) options = some place := by
    simp only [place?, hcache]
    rfl
  obtain ⟨found, hlook, hfound⟩ := place.exists_look_eq rfl session
  have hkeep := place.keep_eq rfl hlifetime
  have hends := service.ends_cachedCall operation arguments session
    (some (cacheKey operation arguments)) options
  rw [hplace] at hends
  generalize runFrom session (service.cachedCall operation arguments
    (some (cacheKey operation arguments)) options) = ran at hends ⊢
  obtain ⟨outcome, later⟩ := ran
  simp only at hends ⊢
  cases hends with
  | hit hhit full calls content =>
    rw [hlook] at hhit content
    obtain rfl := Except.ok.inj hhit
    exact .hit (by rw [← hfound]; simp [full]) calls content
  | lookFailed hfailed calls content =>
    rw [hlook] at hfailed
    cases hfailed
  | callFailed needed answer calls content =>
    exact .failed answer calls (by rw [content, CachePlace.left, hlook])
  | answered needed answer unkept calls content =>
    have hnull := unkept.resolve_left (by simp)
    refine .answered answer calls ?_
    rw [content, CachePlace.left, hlook, if_pos hnull]
  | kept needed answer full stored calls content =>
    refine .answered answer calls ?_
    rw [content, hkeep, hlook, if_neg (by simp [full])]
  | keepFailed needed answer full stored calls content =>
    rw [hkeep] at stored
    cases stored

namespace SessionM

variable {σ ε α β : Type}

/-- The computation has an outcome of its own and changes nothing but the events. -/
def Yields (computation : SessionM ε σ α) (outcome : Except ε α) : Prop :=
  ∀ session, ∃ events, runFrom session computation = (outcome, { session with events })

theorem Yields.pure (value : α) : Yields (pure value : SessionM ε σ α) (.ok value) :=
  fun session => ⟨session.events, rfl⟩

theorem Yields.bind {first : SessionM ε σ α} {rest : α → SessionM ε σ β} {outcome : Except ε α}
    {next : α → Except ε β} (h : Yields first outcome)
    (hrest : ∀ value, Yields (rest value) (next value)) :
    Yields (first >>= rest) (outcome >>= next) := by
  intro session
  obtain ⟨events, hfirst⟩ := h session
  cases outcome with
  | error cause => exact ⟨events, runFrom_bind_error hfirst rest⟩
  | ok value =>
    obtain ⟨more, hmore⟩ := hrest value { session with events }
    exact ⟨more, (runFrom_bind_ok hfirst rest).trans hmore⟩

/-- What yields an outcome of its own leaves of a session what was there before it. -/
theorem exists_runFrom_bind {first : SessionM ε σ α} {rest : α → SessionM ε σ β}
    {next : α → Except ε β} (hrest : ∀ value, Yields (rest value) (next value))
    (session : Session σ) :
    ∃ events, runFrom session (first >>= rest) =
      ((runFrom session first).1 >>= next, { (runFrom session first).2 with events }) := by
  rw [runFrom_bind]
  cases runFrom session first with
  | mk outcome later =>
    cases outcome with
    | error cause => exact ⟨later.events, rfl⟩
    | ok value => exact hrest value later

end SessionM

namespace RecordService

variable {σ α : Type}

/-- The record that a value stands for. -/
def recordOf (type : RecordType α) (value : Json) : Except Failure α :=
  (value.decode type.decode).mapError (.undecodable type.name)

def optionalOf (type : RecordType α) (value : Json) : Except Failure (Option α) :=
  if value.isNull then .ok none else some <$> recordOf type value

theorem yields_decoded (type : RecordType α) (value : Json) :
    Yields (decoded type value : Run σ α) (recordOf type value) := by
  intro session
  unfold decoded recordOf
  cases value.decode type.decode with
  | ok record => exact ⟨session.events, rfl⟩
  | error error => exact ⟨_, Service.runFrom_orFail_error session _ error⟩

theorem yields_decodedOptional (type : RecordType α) (value : Json) :
    Yields (decodedOptional type value : Run σ (Option α)) (optionalOf type value) := by
  unfold decodedOptional optionalOf
  split
  · exact .pure none
  · exact (yields_decoded type value).bind fun record => .pure (some record)

end RecordService

/-- The final arguments of a read. A condition that is not an object has none. -/
def RecordRead.arguments? {σ : Type} (service : Service σ) : RecordRead → Option Arguments
  | findUnique request | findFirst request | findMany request | aggregate request
  | groupBy request => some (service.normalize none request)
  | findUniqueBy (.ok (.obj fields)) => some { condition := some fields }
  | findUniqueBy _ => none

theorem RecordRead.exists_of_findUniqueBy {σ : Type} {service : Service σ} {unique : Payload}
    {arguments : Arguments} (h : (findUniqueBy unique).arguments? service = some arguments) :
    ∃ fields, unique = .ok (.obj fields) ∧ { condition := some fields } = arguments := by
  cases unique with
  | error reason => cases h
  | ok value =>
    cases value with
    | obj fields => exact ⟨fields, rfl, Option.some.inj h⟩
    | _ => cases h

open RecordService in
/-- The result that a read makes of the value it is served. -/
def RecordRead.decode {σ : Type} (service : RecordService σ ρ) (reading : RecordRead)
    (value : Json) : Except Failure (Yield ρ) :=
  match reading with
  | findUnique _ | findUniqueBy _ | findFirst _ => .optional <$> optionalOf service.record value
  | findMany _ => .list <$> recordOf service.listType value
  | aggregate _ | groupBy _ => .ok (.value value)

/-- A read of a request is cached under its own key, or else under its final arguments. -/
theorem RecordService.exists_runFrom_readRequest {σ α : Type} (service : RecordService σ ρ)
    (options : CacheOptions) (session : Session σ) (operation : Operation) (request : Request)
    (rest : Json → Run σ α) :
    ∃ events, runFrom session (service.readRequest operation request options >>= rest) =
      runFrom { session with events } (service.base.cachedCall operation
        (service.base.normalize none request)
        (some (options.key.getD (cacheKey operation (service.base.normalize none request))))
        options >>= rest) := by
  refine ⟨session.events ++ service.base.normalizeEvents request, ?_⟩
  rw [readRequest, bind_assoc,
    runFrom_bind_ok (service.base.runFrom_normalized session none request), read]

open RecordService in
/-- A read with final arguments is a call behind the cache, whose result it decodes. -/
theorem RecordRead.exists_run_eq {σ : Type} {service : RecordService σ ρ} (options : CacheOptions)
    {reading : RecordRead} {arguments : Arguments}
    (h : reading.arguments? service.base = some arguments) (session : Session σ) :
    ∃ events rest, runFrom session (reading.run service options) =
        runFrom { session with events } (service.base.cachedCall reading.operation arguments
          (some (options.key.getD (cacheKey reading.operation arguments))) options >>= rest) ∧
      ∀ value, Yields (rest value) (reading.decode service value) := by
  have hrequest := fun operation request (rest : Json → Run σ (Yield ρ)) =>
    service.exists_runFrom_readRequest options session operation request rest
  have hoptional : ∀ value, Yields
      (do return .optional (← decodedOptional service.record value) : Run σ (Yield ρ))
      (.optional <$> optionalOf service.record value) := fun value =>
    (yields_decodedOptional service.record value).bind fun found => .pure (Yield.optional found)
  cases reading with
  | findUnique request | findFirst request =>
    obtain rfl := Option.some.inj h
    obtain ⟨events, hrun⟩ := hrequest _ request fun value => do
      return Yield.optional (← decodedOptional service.record value)
    refine ⟨events, _, ?_, hoptional⟩
    rw [← hrun, ← bind_assoc]
    rfl
  | findUniqueBy unique =>
    obtain ⟨fields, rfl, rfl⟩ := exists_of_findUniqueBy h
    refine ⟨session.events, _, ?_, hoptional⟩
    have hcondition := runFrom_condition_obj session fields
    rw [RecordRead.run, RecordService.findUniqueBy, bind_assoc, runFrom_bind_ok hcondition,
      bind_assoc, RecordService.read]
    rfl
  | findMany request =>
    obtain rfl := Option.some.inj h
    obtain ⟨events, hrun⟩ := hrequest _ request fun value => do
      return Yield.list (← decoded service.listType value)
    refine ⟨events, _, ?_, fun value =>
      (yields_decoded service.listType value).bind fun records => .pure (Yield.list records)⟩
    rw [← hrun, ← bind_assoc]
    rfl
  | aggregate request | groupBy request =>
    obtain rfl := Option.some.inj h
    obtain ⟨events, hrun⟩ := hrequest _ request fun value => pure (Yield.value value)
    exact ⟨events, _, hrun, fun value => .pure (Yield.value value)⟩

/-- A read is served as a call with its final arguments and decodes what it is served. -/
theorem RecordRead.exists_served {service : RecordService MemoryCache ρ} {options : CacheOptions}
    {reading : RecordRead} {arguments : Arguments} {session : Session MemoryCache}
    (hcache : service.base.config.cache = some MemoryCache.adapter) (hkey : options.key = none)
    (hlifetime : (MemoryCache.expiry session.now (service.base.lifetime options)).all
      (· < MemoryCache.clockEnd))
    (h : reading.arguments? service.base = some arguments) :
    ∃ outcome, Served service.base reading.operation arguments options session outcome
        (runFrom session (reading.run service options)).2 ∧
      (runFrom session (reading.run service options)).1 = outcome >>= reading.decode service := by
  obtain ⟨events, rest, hrun, hrest⟩ := reading.exists_run_eq options h session
  rw [hkey, Option.getD_none] at hrun
  obtain ⟨more, hbind⟩ := exists_runFrom_bind hrest { session with events }
  have hserved : Served service.base reading.operation arguments options { session with events }
      (runFrom { session with events } (service.base.cachedCall reading.operation arguments
        (some (cacheKey reading.operation arguments)) options)).1
      (runFrom { session with events } (service.base.cachedCall reading.operation arguments
        (some (cacheKey reading.operation arguments)) options)).2 :=
    Service.served_cachedCall hcache hlifetime
  rw [hrun, hbind]
  exact ⟨_, hserved.of_events, rfl⟩

/-- A read whose condition is not an object is refused and touches neither delegate nor cache. -/
theorem RecordRead.exists_refused {σ : Type} {service : RecordService σ ρ} {reading : RecordRead}
    (h : reading.arguments? service.base = none) (options : CacheOptions) (session : Session σ) :
    ∃ error events, runFrom session (reading.run service options) =
      (.error (.invalidRequest error), { session with events }) := by
  cases reading with
  | findUniqueBy unique =>
    have hrefused : ∀ fields, unique ≠ .ok (.obj fields) := by
      rintro fields rfl
      cases h
    obtain ⟨error, hcondition⟩ := RecordService.runFrom_condition_refused session hrefused
    refine ⟨error, session.events ++ [.failed (.invalidRequest error)], ?_⟩
    rw [RecordRead.run, RecordService.findUniqueBy, bind_assoc, runFrom_bind_error hcondition]
  | _ => cases h

end RecordQuery
