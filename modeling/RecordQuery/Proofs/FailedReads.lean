import RecordQuery.Proofs.Dispatch
import RecordQuery.Proofs.TimedMap

/-!
# What failed reads leave in the memory cache

A read of records changes what the memory cache replies only when the delegate answers it with a
value that is not null, and then under its own key. The answer is kept before it is decoded. So a
read that is refused, that fails with the delegate, or that cannot decode what the cache holds leaves
every reply as it was, while an answer that cannot be decoded is kept like any other.
-/

namespace RecordQuery

open SessionM MemoryCache

variable {ρ : Type} {service : RecordService MemoryCache ρ} {reading : RecordRead}
  {options : CacheOptions} {session later : Session MemoryCache}

namespace MemoryCache

/-- Looking for a value leaves every reply as it was. -/
theorem reply_of_look {forced : Bool} {key : String} (hnow : later.now = session.now)
    (hcache : later.cache = (session.cache.look forced session.now key).2) (other : String) :
    reply later other = reply session other := by
  cases forced with
  | true =>
    have hsame : later.cache = session.cache := hcache
    rw [reply, reply, hnow, hsame]
  | false =>
    have hget : reply later other = reply ((Step.get key).act session) other := by
      have hsame : later.cache = ((Step.get key).act session).cache := hcache
      rw [reply, reply, hnow, hsame]
      rfl
    rw [hget, reply_eq, content_get, reply_eq]

/-- A value that is stored is replied under its key, and nothing else is replied otherwise. -/
theorem reply_of_set (before : Session MemoryCache) {key : String} {value : Json}
    {lifetime : Option Lifetime} (hnow : later.now = before.now)
    (hset : before.cache.set before.now key value lifetime = .ok later.cache) (other : String) :
    reply later other = if other = key then some value else reply before other := by
  split
  · rename_i hkey
    rw [reply, hnow, hkey, get_of_set hset]
  · rename_i hkey
    rw [reply_eq, reply_eq, content, content, hnow, eq_insert_of_set hset, find?_insert,
      if_neg hkey]

end MemoryCache

/-- What the memory cache keeps without a failure it has stored under the key of the place. -/
theorem CachePlace.set_of_keep {place : CachePlace MemoryCache}
    (hadapter : place.adapter = MemoryCache.adapter) {now : Instant} {value : Json}
    {content : MemoryCache} (h : (place.keep now value content).1 = .ok ()) :
    content.set now place.key value place.lifetime = .ok (place.keep now value content).2 := by
  rw [keep, hadapter] at h ⊢
  simp only [MemoryCache.adapter] at h ⊢
  cases hset : content.set now place.key value place.lifetime with
  | ok next => rfl
  | error cause => simp [hset] at h

/-- A read ends as the call with its final arguments does, behind the place of its key, and decodes
the result of that call. -/
theorem RecordRead.exists_ends {σ : Type} {service : RecordService σ ρ} (reading : RecordRead)
    (options : CacheOptions) {arguments : Arguments}
    (h : reading.arguments? service.base = some arguments) (session : Session σ) :
    ∃ outcome later events, Ends service.base reading.operation arguments session
        (service.base.place? (some (options.key.getD (cacheKey reading.operation arguments))) options)
        outcome later ∧
      runFrom session (reading.run service options) =
        (outcome >>= reading.decode service, { later with events }) := by
  obtain ⟨events, rest, hrun, hrest⟩ := reading.exists_run_eq options h session
  obtain ⟨more, hbind⟩ := exists_runFrom_bind hrest { session with events }
  rw [hrun, hbind]
  exact ⟨_, _, more, (service.base.ends_cachedCall _ _ _ _ _).of_events, rfl⟩

theorem RecordRead.now_run {σ : Type} (service : RecordService σ ρ) (options : CacheOptions)
    (reading : RecordRead) (session : Session σ) :
    (runFrom session (reading.run service options)).2.now = session.now := by
  have frame : Frame fun before after : Session σ => after.now = before.now :=
    ⟨fun hfirst hsecond => hsecond.trans hfirst, fun _ _ => rfl⟩
  refine reading.moves_run frame (fun _ _ => rfl) service options (fun arguments => ?_) session
  intro before
  rw [Service.runFrom_send]

theorem eq_error_of_map {ε α β : Type} {f : α → β} {result : Except ε α} {error : ε}
    (h : f <$> result = .error error) : result = .error error := by
  cases result with
  | ok value => cases h
  | error cause => exact congrArg Except.error (Except.error.inj h)

/-- A value that is served has no other fault than that it cannot be decoded. -/
theorem RecordRead.exists_undecodable {value : Json} {failure : Failure}
    (h : reading.decode service value = .error failure) :
    ∃ name error, failure = .undecodable name error := by
  have hrecord {α : Type} {type : RecordType α}
      (h : RecordService.recordOf type value = .error failure) :
      ∃ name error, failure = .undecodable name error := by
    unfold RecordService.recordOf at h
    cases hdecode : value.decode type.decode with
    | ok record => simp [hdecode, Except.mapError] at h
    | error error =>
      rw [hdecode] at h
      exact ⟨type.name, error, (Except.error.inj h).symm⟩
  have hoptional (h : RecordService.optionalOf service.record value = .error failure) :
      ∃ name error, failure = .undecodable name error := by
    unfold RecordService.optionalOf at h
    split at h
    · cases h
    · exact hrecord (eq_error_of_map h)
  cases reading with
  | findUnique | findUniqueBy | findFirst => exact hoptional (eq_error_of_map h)
  | findMany => exact hrecord (eq_error_of_map h)
  | aggregate | groupBy => cases h

/-- In the course of a read the delegate answers with a value that is not null; `key` is the one
under which the result of the read is looked for. -/
def RecordRead.Fetches (service : RecordService MemoryCache ρ) (options : CacheOptions)
    (session : Session MemoryCache) (reading : RecordRead) (key : String) (value : Json) : Prop :=
  ∃ arguments, reading.arguments? service.base = some arguments ∧
    options.key.getD (cacheKey reading.operation arguments) = key ∧
    (runFrom session (reading.run service options)).2.calls =
      session.calls ++ [.delegate service.base.delegate.name reading.operation arguments] ∧
    service.base.delegate.answer (session.delegateCalls + 1) reading.operation arguments =
      .ok value ∧
    value.isNull = false

/-- What a call behind a place of the memory cache changes in the replies: an answer that is not
null is replied from then on, unless it cannot be kept. -/
theorem Ends.replies {service : Service MemoryCache} {operation : Operation}
    {arguments : Arguments} {place : CachePlace MemoryCache} {outcome : Except Failure Json}
    (h : Ends service operation arguments session (some place) outcome later)
    (hadapter : place.adapter = MemoryCache.adapter) (hnow : later.now = session.now)
    (hcache : ∀ error, outcome ≠ .error (.cache error)) :
    (∃ value, outcome = .ok value ∧ value.isNull = false ∧
      service.delegate.answer (session.delegateCalls + 1) operation arguments = .ok value ∧
      later.calls = session.calls ++ [.delegate service.delegate.name operation arguments] ∧
      ∀ other, reply later other =
        if other = place.key then some value else reply session other) ∨
    (later.calls = session.calls ++ [.delegate service.delegate.name operation arguments] →
      ∀ value, service.delegate.answer (session.delegateCalls + 1) operation arguments = .ok value →
        value.isNull = true) ∧
    ∀ other, reply later other = reply session other := by
  obtain ⟨found, hlook, -⟩ := place.exists_look_eq hadapter session
  have hleft (ended : Session MemoryCache) (hended : ended.now = session.now)
      (hcontent : ended.cache = (place.look session).2) (other : String) :
      reply ended other = reply session other := by
    rw [hlook] at hcontent
    exact reply_of_look hended hcontent other
  cases h with
  | hit found full calls content =>
    refine .inr ⟨fun hsent => ?_, hleft later hnow content⟩
    simp [calls] at hsent
  | lookFailed found calls content => exact (hcache _ rfl).elim
  | callFailed needed answer calls content =>
    refine .inr ⟨fun _ value hanswer => ?_, hleft later hnow content⟩
    cases answer.symm.trans hanswer
  | answered needed answer unkept calls content =>
    refine .inr ⟨fun _ value hanswer => ?_, hleft later hnow content⟩
    obtain rfl := Except.ok.inj (answer.symm.trans hanswer)
    exact unkept.resolve_left (by simp)
  | kept needed answer full stored calls content =>
    have hset := place.set_of_keep hadapter stored
    rw [← content] at hset
    refine .inl ⟨_, rfl, full, answer, calls, fun other => ?_⟩
    let looked : Session MemoryCache := { session with cache := (place.look session).2 }
    have hstored := reply_of_set looked hnow hset other
    have hlooked : reply looked other = reply session other := hleft looked rfl rfl other
    rw [hstored, hlooked]
  | keepFailed needed answer full stored calls content => exact (hcache _ rfl).elim

/-- A failed read leaves every reply as it was, unless the delegate has just given it a value that is
not null. Then the value could not be decoded, and it is replied under the key of the read from then
on, while every other reply is as it was. A read that fails in the clock of the cache is left out. -/
theorem RecordRead.failed_reads_leave_replies
    (hcache : service.base.config.cache = some MemoryCache.adapter)
    {failure : Failure}
    (hrun : runFrom session (reading.run service options) = (.error failure, later))
    (hfailure : ∀ error, failure ≠ .cache error) :
    ((∀ name error, failure ≠ .undecodable name error) →
      ∀ key, reply later key = reply session key) ∧
    ((∀ key value, ¬ reading.Fetches service options session key value) →
      ∀ key, reply later key = reply session key) ∧
    ∀ key value, reading.Fetches service options session key value →
      (∃ name error, failure = .undecodable name error) ∧ reply later key = some value ∧
        ∀ other, other ≠ key → reply later other = reply session other := by
  have hnow : later.now = session.now := by
    have hran := reading.now_run service options session
    rwa [hrun] at hran
  suffices h : ((∀ key value, ¬ reading.Fetches service options session key value) →
      ∀ key, reply later key = reply session key) ∧
      ∀ key value, reading.Fetches service options session key value →
        (∃ name error, failure = .undecodable name error) ∧ reply later key = some value ∧
          ∀ other, other ≠ key → reply later other = reply session other by
    refine ⟨fun hother => h.1 fun key value hfetches => ?_, h⟩
    obtain ⟨name, error, hundecodable⟩ := (h.2 key value hfetches).1
    exact hother name error hundecodable
  cases harguments : reading.arguments? service.base with
  | none =>
    obtain ⟨error, events, hrefused⟩ := reading.exists_refused harguments options session
    obtain ⟨-, rfl⟩ := Prod.mk.inj (hrun.symm.trans hrefused)
    refine ⟨fun _ _ => rfl, ?_⟩
    rintro key value ⟨arguments, hsome, -⟩
    cases harguments.symm.trans hsome
  | some arguments =>
    obtain ⟨outcome, ended, events, hends, hended⟩ :=
      reading.exists_ends options harguments session
    obtain ⟨hresult, rfl⟩ := Prod.mk.inj (hrun.symm.trans hended)
    have houtcome : ∀ error, outcome ≠ .error (.cache error) := by
      rintro error rfl
      exact hfailure error (Except.error.inj hresult)
    simp only [Service.place?, hcache] at hends
    rcases hends.replies rfl hnow houtcome with
      ⟨value, rfl, hfull, hanswer, hcalls, hreplies⟩ | ⟨hnull, hreplies⟩
    · have hfetched : reading.Fetches service options session _ value :=
        ⟨arguments, harguments, rfl, by rw [hended]; exact hcalls, hanswer, hfull⟩
      refine ⟨fun hnone => (hnone _ _ hfetched).elim, ?_⟩
      rintro key other ⟨final, hfinal, rfl, -, hother, -⟩
      obtain rfl := Option.some.inj (harguments.symm.trans hfinal)
      obtain rfl := Except.ok.inj (hanswer.symm.trans hother)
      refine ⟨RecordRead.exists_undecodable hresult.symm, ?_, fun key hkey => ?_⟩
      · exact (hreplies _).trans (if_pos rfl)
      · exact (hreplies key).trans (if_neg hkey)
    · refine ⟨fun _ => hreplies, ?_⟩
      rintro key value ⟨final, hfinal, -, hcalls, hanswer, hfull⟩
      obtain rfl := Option.some.inj (harguments.symm.trans hfinal)
      rw [hended] at hcalls
      have hempty := hnull hcalls value hanswer
      rw [hfull] at hempty
      cases hempty

/-- Numbers behind a delegate that answers every call with a list of one text. -/
def RecordService.misnumbered : RecordService MemoryCache Int64 where
  base := {
    delegate := ⟨"number", fun _ _ _ => .ok (.arr [.str "one"])⟩
    store := ⟨fun _ => .ok [], fun _ => none⟩
    config := { cache := some MemoryCache.adapter }
    stamp _ := "2024-01-01T00:00:00.000Z" }
  record := ⟨"Number", Doc.signed⟩

/-- A forced read that cannot decode its answer replaces the numbers kept before under its key. -/
theorem RecordRead.failed_reads_leave_replies_under_other_keys :
    let session : Session MemoryCache :=
      { cache := { entries := [("all", ⟨.arr [.int 1], none⟩), ("few", ⟨.arr [.int 2], some 5⟩)] } }
    let options : CacheOptions := { key := some "all", forceRefresh := true }
    let reading : RecordRead := .findMany .empty
    let failure : Failure := .undecodable "Number" (.wrongKind (.str "one") .signed)
    let ran := runFrom session (reading.run .misnumbered options)
    ran.1 = .error failure ∧
      reading.Fetches .misnumbered options session "all" (.arr [.str "one"]) ∧
      reply ran.2 "all" = some (.arr [.str "one"]) ∧ reply ran.2 "few" = some (.arr [.int 2]) := by
  intro session options reading failure ran
  have hran : ran = (.error failure, ran.2) := rfl
  have hfetches : reading.Fetches .misnumbered options session "all" (.arr [.str "one"]) :=
    ⟨{}, rfl, rfl, rfl, rfl, rfl⟩
  have hfailure : ∀ error, failure ≠ .cache error := fun error => by simp [failure]
  obtain ⟨-, -, hfetched⟩ := RecordRead.failed_reads_leave_replies rfl hran hfailure
  obtain ⟨-, hall, hothers⟩ := hfetched "all" _ hfetches
  exact ⟨rfl, hfetches, hall, hothers "few" (by decide)⟩

/-- An answer that cannot be decoded is found by later reads, which fail without asking again. -/
theorem RecordRead.undecodable_answer_is_kept :
    let session : Session MemoryCache := { cache := MemoryCache.empty }
    let ask := (RecordRead.findMany .empty).run .misnumbered { key := some "all" }
    let failure : Failure := .undecodable "Number" (.wrongKind (.str "one") .signed)
    let ran := runFrom session ask
    let again := runFrom ran.2 ask
    ran.1 = .error failure ∧ again.1 = .error failure ∧ again.2.calls = ran.2.calls ∧
      ¬ ∀ key, reply ran.2 key = reply session key := by
  intro session ask failure ran again
  refine ⟨rfl, rfl, rfl, fun h => ?_⟩
  have hall : some (.arr [.str "one"]) = (none : Option Json) := h "all"
  cases hall

end RecordQuery
