import RecordQuery.Proofs.Runs

/-!
# Calls behind a cache

A call behind a cache looks in its place first. The place settles the call when looking there fails
or finds a value. Otherwise the delegate is asked once, and what it answers is kept unless it is
null. Errors of the adapter and of the delegate are passed on, whichever comes first. Without an
adapter or a key there is no place, and the call is one to the delegate.
-/

namespace RecordQuery

variable {σ : Type}

/-- Where a result may be found before the delegate is asked for it. -/
structure CachePlace (σ : Type) where
  adapter : CacheAdapter σ
  key : String
  forced : Bool := false
  lifetime : Option Lifetime := none

namespace CachePlace

/-- What is found in a place, and the content that looking for it leaves. -/
def look (place : CachePlace σ) (session : Session σ) : Except CacheError (Option Json) × σ :=
  if place.forced then (.ok none, session.cache)
  else place.adapter.get session.now place.key session.cache

/-- What comes of keeping a value in a place, and the content that this leaves. -/
def keep (place : CachePlace σ) (now : Instant) (value : Json) (content : σ) :
    Except CacheError Unit × σ :=
  place.adapter.set now place.key value place.lifetime content

/-- The delegate is not needed: looking fails or finds a value that is not null. -/
def Settles (place : CachePlace σ) (session : Session σ) : Prop :=
  (∃ error, (place.look session).1 = .error error) ∨
    ∃ value, (place.look session).1 = .ok (some value) ∧ value.isNull = false

/-- The content that looking in a place leaves, if there is one to look in. -/
def left (place : Option (CachePlace σ)) (session : Session σ) : σ :=
  match place with
  | none => session.cache
  | some place => (place.look session).2

/-- What is found where nothing settles a call counts as nothing. -/
theorem exists_found_of_not_settles {place : CachePlace σ} {session : Session σ}
    (h : ¬ place.Settles session) :
    ∃ found, (place.look session).1 = .ok found ∧ found.filter (!·.isNull) = none := by
  cases hfound : (place.look session).1 with
  | error error => exact (h (.inl ⟨error, hfound⟩)).elim
  | ok found =>
    refine ⟨found, rfl, Option.filter_eq_none_iff.mpr fun value hmem hfull => ?_⟩
    have hvalue : (place.look session).1 = .ok (some value) := by rw [hfound, hmem]
    exact h (.inr ⟨value, hvalue, by simpa using hfull⟩)

end CachePlace

namespace Service

open SessionM

variable (service : Service σ)

/-- The place of a key, if there is an adapter. -/
def place? (key : Option String) (options : CacheOptions) : Option (CachePlace σ) :=
  match service.config.cache, key with
  | some adapter, some key =>
    some ⟨adapter, key, options.forceRefresh, options.lifetime <|> service.config.lifetime⟩
  | _, _ => none

variable {service} {key : Option String} {options : CacheOptions}

theorem place?_eq_none_iff :
    service.place? key options = none ↔ service.config.cache = none ∨ key = none := by
  unfold place?
  cases service.config.cache <;> cases key <;> simp

/-- Without a place there is nothing behind which a computation could run. -/
theorem withCache_of_place?_eq_none (h : service.place? key options = none)
    (producer : Run σ Json) : service.withCache key options producer = producer := by
  have hlookUp : service.lookUp key options = pure none := by
    rcases place?_eq_none_iff.mp h with habsent | rfl
    · simp only [lookUp, habsent]
    · cases hcache : service.config.cache <;> simp only [lookUp, hcache]
  have hkeep (value : Json) : service.keep key options value = pure value := by
    rcases place?_eq_none_iff.mp h with habsent | rfl
    · simp only [keep, habsent]
    · cases hcache : service.config.cache <;> simp only [keep, hcache]
  simp only [withCache, hlookUp, hkeep, pure_bind, bind_pure]

theorem exists_of_place?_eq_some {place : CachePlace σ}
    (h : service.place? key options = some place) :
    service.config.cache = some place.adapter ∧ key = some place.key ∧
      place.forced = options.forceRefresh ∧
      place.lifetime = (options.lifetime <|> service.config.lifetime) := by
  unfold place? at h
  split at h
  · rename_i adapter key hadapter
    obtain rfl := Option.some.inj h
    exact ⟨hadapter, rfl, rfl, rfl⟩
  · cases h

theorem runFrom_lookUp_place {place : CachePlace σ} (h : service.place? key options = some place)
    (session : Session σ) :
    ∃ events, runFrom session (service.lookUp key options) =
      (((place.look session).1.mapError .cache).map (·.filter (!·.isNull)),
        { session with cache := (place.look session).2, events }) := by
  obtain ⟨hadapter, rfl, hforced, -⟩ := exists_of_place?_eq_some h
  obtain ⟨⟨get, set, del⟩, key, forced, lifetime⟩ := place
  simp only at hadapter hforced
  unfold lookUp CachePlace.look
  simp only [hadapter, ← hforced]
  cases forced with
  | true => exact ⟨_, rfl⟩
  | false =>
    simp only [Bool.false_eq_true, if_false]
    rw [runFrom_bind_ok (runFrom_get session)]
    cases get session.now key session.cache with
    | mk found content =>
      simp only
      rw [runFrom_bind_ok (runFrom_set _ _)]
      cases found with
      | error cause =>
        rw [runFrom_bind_error (runFrom_orFail_error _ _ _)]
        exact ⟨_, rfl⟩
      | ok found =>
        have hfound : (((.ok found : Except CacheError (Option Json)).mapError Failure.cache).map
            (·.filter (!·.isNull))) = .ok (found.filter (!·.isNull)) := rfl
        rw [runFrom_bind_ok (runFrom_orFail_ok _ _ _), hfound]
        cases found.filter (!·.isNull) with
        | none => exact ⟨_, rfl⟩
        | some hit => exact ⟨_, rfl⟩

theorem keep_null {value : Json} (h : value.isNull = true) :
    service.keep key options value = pure value := by
  unfold keep
  split
  · simp [h]
  · rfl

theorem runFrom_keep_place {place : CachePlace σ} (h : service.place? key options = some place)
    (session : Session σ) {value : Json} (hvalue : value.isNull = false) :
    ∃ events, runFrom session (service.keep key options value) =
      (((place.keep session.now value session.cache).1.mapError .cache).map fun _ => value,
        { session with cache := (place.keep session.now value session.cache).2, events }) := by
  obtain ⟨hadapter, rfl, -, hlifetime⟩ := exists_of_place?_eq_some h
  obtain ⟨⟨get, set, del⟩, key, forced, lifetime⟩ := place
  simp only at hadapter hlifetime
  unfold keep CachePlace.keep
  simp only [hadapter, hvalue, Bool.false_eq_true, if_false, ← hlifetime]
  rw [runFrom_bind_ok (runFrom_get session)]
  cases set session.now key value lifetime session.cache with
  | mk stored content =>
    simp only
    rw [runFrom_bind_ok (runFrom_set _ _)]
    cases stored with
    | error cause =>
      rw [runFrom_bind_error (runFrom_orFail_error _ _ _)]
      exact ⟨_, rfl⟩
    | ok stored => exact ⟨session.events, rfl⟩

end Service

/-- How a call ends that looks in a place first, and what it leaves of calls and cache. -/
inductive Ends (service : Service σ) (operation : Operation) (arguments : Arguments)
    (session : Session σ) :
    Option (CachePlace σ) → Except Failure Json → Session σ → Prop where
  | hit {place : CachePlace σ} {value : Json} {later : Session σ}
      (found : (place.look session).1 = .ok (some value)) (full : value.isNull = false)
      (calls : later.calls = session.calls) (content : later.cache = (place.look session).2) :
      Ends service operation arguments session (some place) (.ok value) later
  | lookFailed {place : CachePlace σ} {error : CacheError} {later : Session σ}
      (found : (place.look session).1 = .error error)
      (calls : later.calls = session.calls) (content : later.cache = (place.look session).2) :
      Ends service operation arguments session (some place) (.error (.cache error)) later
  | callFailed {place : Option (CachePlace σ)} {error : DatabaseError} {later : Session σ}
      (needed : ∀ found ∈ place, ¬ found.Settles session)
      (answer : service.delegate.answer (session.delegateCalls + 1) operation arguments =
        .error error)
      (calls : later.calls =
        session.calls ++ [.delegate service.delegate.name operation arguments])
      (content : later.cache = CachePlace.left place session) :
      Ends service operation arguments session place (.error (.database error)) later
  | answered {place : Option (CachePlace σ)} {value : Json} {later : Session σ}
      (needed : ∀ found ∈ place, ¬ found.Settles session)
      (answer : service.delegate.answer (session.delegateCalls + 1) operation arguments =
        .ok value)
      (unkept : place = none ∨ value.isNull = true)
      (calls : later.calls =
        session.calls ++ [.delegate service.delegate.name operation arguments])
      (content : later.cache = CachePlace.left place session) :
      Ends service operation arguments session place (.ok value) later
  | kept {place : CachePlace σ} {value : Json} {later : Session σ}
      (needed : ¬ place.Settles session)
      (answer : service.delegate.answer (session.delegateCalls + 1) operation arguments =
        .ok value)
      (full : value.isNull = false)
      (stored : (place.keep session.now value (place.look session).2).1 = .ok ())
      (calls : later.calls =
        session.calls ++ [.delegate service.delegate.name operation arguments])
      (content : later.cache = (place.keep session.now value (place.look session).2).2) :
      Ends service operation arguments session (some place) (.ok value) later
  | keepFailed {place : CachePlace σ} {value : Json} {error : CacheError} {later : Session σ}
      (needed : ¬ place.Settles session)
      (answer : service.delegate.answer (session.delegateCalls + 1) operation arguments =
        .ok value)
      (full : value.isNull = false)
      (stored : (place.keep session.now value (place.look session).2).1 = .error error)
      (calls : later.calls =
        session.calls ++ [.delegate service.delegate.name operation arguments])
      (content : later.cache = (place.keep session.now value (place.look session).2).2) :
      Ends service operation arguments session (some place) (.error (.cache error)) later

namespace Service

open SessionM

variable (service : Service σ) (operation : Operation) (arguments : Arguments)
  (session : Session σ)

/-- Without a place, what the delegate answers is the result. -/
theorem ends_call :
    Ends service operation arguments session none
      (runFrom session (service.call operation arguments)).1
      (runFrom session (service.call operation arguments)).2 := by
  obtain ⟨events, hcall⟩ := service.runFrom_call session operation arguments
  rw [hcall]
  cases hanswer : service.delegate.answer (session.delegateCalls + 1) operation arguments with
  | error error => exact .callFailed (by simp) hanswer rfl rfl
  | ok value => exact .answered (by simp) hanswer (.inl rfl) rfl rfl

theorem ends_cachedCall (key : Option String) (options : CacheOptions) :
    Ends service operation arguments session (service.place? key options)
      (runFrom session (service.cachedCall operation arguments key options)).1
      (runFrom session (service.cachedCall operation arguments key options)).2 := by
  rw [cachedCall]
  cases hplace : service.place? key options with
  | none =>
    rw [withCache_of_place?_eq_none hplace]
    exact service.ends_call operation arguments session
  | some place =>
    obtain ⟨events, hlook⟩ := runFrom_lookUp_place hplace session
    by_cases hsettles : place.Settles session
    · rcases hsettles with ⟨error, herror⟩ | ⟨value, hvalue, hfull⟩
      · rw [herror] at hlook
        rw [withCache, runFrom_bind_error hlook]
        exact .lookFailed herror rfl rfl
      · have hhit : (some value).filter (!·.isNull) = some value := by simp [hfull]
        have hfound : ((.ok (some value) : Except CacheError (Option Json)).mapError
            Failure.cache).map (·.filter (!·.isNull)) = .ok (some value) := congrArg Except.ok hhit
        rw [hvalue, hfound] at hlook
        rw [withCache, runFrom_bind_ok hlook]
        exact .hit hvalue hfull rfl rfl
    · obtain ⟨found, hfound, hnothing⟩ := CachePlace.exists_found_of_not_settles hsettles
      have hmiss : (((place.look session).1.mapError Failure.cache).map
          (·.filter (!·.isNull))) = .ok none := by
        rw [hfound]
        exact congrArg Except.ok hnothing
      obtain ⟨more, hcall⟩ := service.runFrom_call
        { session with cache := (place.look session).2, events } operation arguments
      rw [hmiss] at hlook
      rw [withCache, runFrom_bind_ok hlook]
      simp only
      cases hanswer : service.delegate.answer (session.delegateCalls + 1) operation arguments with
      | error error =>
        simp only [hanswer] at hcall
        rw [runFrom_bind_error hcall]
        exact .callFailed (by simpa using hsettles) hanswer rfl rfl
      | ok value =>
        simp only [hanswer] at hcall
        rw [runFrom_bind_ok hcall]
        cases hnull : value.isNull with
        | true =>
          rw [keep_null hnull]
          exact .answered (by simpa using hsettles) hanswer (.inr hnull) rfl rfl
        | false =>
          obtain ⟨last, hkeep⟩ := runFrom_keep_place hplace { session with
            cache := (place.look session).2
            calls := session.calls ++ [.delegate service.delegate.name operation arguments]
            delegateCalls := session.delegateCalls + 1
            events := more } hnull
          rw [hkeep]
          cases hstored : (place.keep session.now value (place.look session).2).1 with
          | error error => exact .keepFailed hsettles hanswer hnull hstored rfl rfl
          | ok stored => exact .kept hsettles hanswer hnull hstored rfl rfl

end Service

namespace Ends

variable {service : Service σ} {operation : Operation} {arguments : Arguments}
  {session later : Session σ} {place : Option (CachePlace σ)} {outcome : Except Failure Json}

/-- A place that settles the call keeps it from the delegate. -/
theorem calls_eq (h : Ends service operation arguments session place outcome later) :
    (∃ found ∈ place, found.Settles session) ∧ later.calls = session.calls ∨
      (∀ found ∈ place, ¬ found.Settles session) ∧ later.calls =
        session.calls ++ [.delegate service.delegate.name operation arguments] := by
  cases h with
  | hit found full calls content => exact .inl ⟨⟨_, rfl, .inr ⟨_, found, full⟩⟩, calls⟩
  | lookFailed found calls content => exact .inl ⟨⟨_, rfl, .inl ⟨_, found⟩⟩, calls⟩
  | callFailed needed answer calls content => exact .inr ⟨needed, calls⟩
  | answered needed answer unkept calls content => exact .inr ⟨needed, calls⟩
  | kept needed answer full stored calls content => exact .inr ⟨by simpa using needed, calls⟩
  | keepFailed needed answer full stored calls content =>
    exact .inr ⟨by simpa using needed, calls⟩

/-- The delegate's error is the outcome, and nothing is kept. -/
theorem of_answer_error (h : Ends service operation arguments session place outcome later)
    (hsent : later.calls ≠ session.calls) {error : DatabaseError}
    (hanswer : service.delegate.answer (session.delegateCalls + 1) operation arguments =
      .error error) :
    outcome = .error (.database error) ∧ later.cache = CachePlace.left place session := by
  cases h with
  | hit found full calls content => exact (hsent calls).elim
  | lookFailed found calls content => exact (hsent calls).elim
  | callFailed needed answer calls content =>
    obtain rfl := Except.error.inj (answer.symm.trans hanswer)
    exact ⟨rfl, content⟩
  | answered needed answer unkept calls content => cases answer.symm.trans hanswer
  | kept needed answer full stored calls content => cases answer.symm.trans hanswer
  | keepFailed needed answer full stored calls content => cases answer.symm.trans hanswer

theorem of_look_error {place : CachePlace σ}
    (h : Ends service operation arguments session (some place) outcome later) {error : CacheError}
    (hlook : (place.look session).1 = .error error) : outcome = .error (.cache error) := by
  have hsettles : place.Settles session := .inl ⟨error, hlook⟩
  cases h with
  | hit found full calls content => cases found.symm.trans hlook
  | lookFailed found calls content =>
    obtain rfl := Except.error.inj (found.symm.trans hlook)
    rfl
  | callFailed needed answer calls content => exact (needed place rfl hsettles).elim
  | answered needed answer unkept calls content => exact (needed place rfl hsettles).elim
  | kept needed answer full stored calls content => exact (needed hsettles).elim
  | keepFailed needed answer full stored calls content => exact (needed hsettles).elim

theorem of_keep_error {place : CachePlace σ}
    (h : Ends service operation arguments session (some place) outcome later)
    (hsent : later.calls ≠ session.calls) {value : Json}
    (hanswer : service.delegate.answer (session.delegateCalls + 1) operation arguments = .ok value)
    (hfull : value.isNull = false) {error : CacheError}
    (hkeep : (place.keep session.now value (place.look session).2).1 = .error error) :
    outcome = .error (.cache error) := by
  cases h with
  | hit found full calls content => exact (hsent calls).elim
  | lookFailed found calls content => exact (hsent calls).elim
  | callFailed needed answer calls content => cases answer.symm.trans hanswer
  | answered needed answer unkept calls content =>
    obtain rfl := Except.ok.inj (answer.symm.trans hanswer)
    simp [hfull] at unkept
  | kept needed answer full stored calls content =>
    obtain rfl := Except.ok.inj (answer.symm.trans hanswer)
    cases stored.symm.trans hkeep
  | keepFailed needed answer full stored calls content =>
    obtain rfl := Except.ok.inj (answer.symm.trans hanswer)
    obtain rfl := Except.error.inj (stored.symm.trans hkeep)
    rfl

theorem cache_eq (h : Ends service operation arguments session none outcome later) :
    later.cache = session.cache := by
  cases h with
  | callFailed needed answer calls content => exact content
  | answered needed answer unkept calls content => exact content

end Ends

end RecordQuery
