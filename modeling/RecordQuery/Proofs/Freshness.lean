import RecordQuery.Proofs.Entries
import RecordQuery.Proofs.Keys
import RecordQuery.Proofs.Reads

/-!
# Freshness of cached reads

A run takes reads, writes, changes of the cache and waits in any order. Each entry of the memory
cache is accounted for by the step that stored it, since when nothing has touched its key. As keys
tell calls apart, a read that is not put to the delegate is served with what the delegate last
answered to the same call, within the lifetime of that answer.
-/

namespace RecordQuery

open SessionM

variable {ρ : Type}

/-- Other native keys of the request stand apart from the known ones. -/
def Request.Apart : Request → Prop
  | .native arguments => arguments.Apart
  | _ => True

def RecordRead.Apart : RecordRead → Prop
  | findUnique request | findFirst request | findMany request | aggregate request
  | groupBy request => request.Apart
  | findUniqueBy _ => True

theorem Service.normalize_apart {σ : Type} (service : Service σ) {request : Request}
    (h : request.Apart) (base : Option Fields) : (service.normalize base request).Apart := by
  have hnone : ∀ {arguments : Arguments}, arguments.extra = [] → arguments.Apart := by
    intro arguments hextra entry hentry
    rw [hextra] at hentry
    cases hentry
  cases request with
  | native arguments => exact h
  | shorthand options => exact hnone rfl
  | bare value =>
    apply hnone
    cases value <;> rfl

theorem RecordRead.apart_of_arguments? {σ : Type} {service : Service σ} {reading : RecordRead}
    {arguments : Arguments} (hapart : reading.Apart)
    (h : reading.arguments? service = some arguments) : arguments.Apart := by
  cases reading with
  | findUniqueBy unique =>
    obtain ⟨fields, -, rfl⟩ := exists_of_findUniqueBy h
    intro entry hentry
    cases hentry
  | findUnique | findFirst | findMany | aggregate | groupBy =>
    obtain rfl := Option.some.inj h
    exact service.normalize_apart hapart none

/-- A step of a run of records behind the memory cache. -/
inductive CacheStep where
  | read (reading : RecordRead) (options : CacheOptions)
  | write (writing : RecordWrite)
  | del (key : String)
  | clear
  | pass (elapsed : Nat)

namespace CacheStep

variable (service : RecordService MemoryCache ρ)

def act (step : CacheStep) (session : Session MemoryCache) : Session MemoryCache :=
  match step with
  | read reading options => (runFrom session (reading.run service options)).2
  | write writing => (runFrom session (writing.run service)).2
  | del key => { session with cache := MemoryCache.del key session.cache }
  | clear => { session with cache := MemoryCache.empty }
  | pass elapsed => { session with now := session.now + elapsed }

/-- A read leaves the key to the service, names no other native key like a known one, and asks for
a lifetime whose end the clock can name. -/
def Admissible (session : Session MemoryCache) : CacheStep → Prop
  | read reading options =>
    options.key = none ∧ reading.Apart ∧
      (MemoryCache.expiry session.now (service.base.lifetime options)).all
        (· < MemoryCache.clockEnd)
  | _ => True

def Removes (key : String) : CacheStep → Prop
  | del other => other = key
  | clear => True
  | _ => False

end CacheStep

/-- At a step a read is put to the delegate, and the answer is one that is stored. -/
inductive Stored (service : RecordService MemoryCache ρ) :
    Session MemoryCache × CacheStep → Operation → Arguments → Json → Option Lifetime → Prop where
  | read {session : Session MemoryCache} {reading : RecordRead} {options : CacheOptions}
      {arguments : Arguments} {value : Json}
      (final : reading.arguments? service.base = some arguments)
      (sent : (runFrom session (reading.run service options)).2.calls =
        session.calls ++ [.delegate service.base.delegate.name reading.operation arguments])
      (answer : service.base.delegate.answer (session.delegateCalls + 1) reading.operation
        arguments = .ok value)
      (present : value.isNull = false) :
      Stored service (session, .read reading options) reading.operation arguments value
        (service.base.lifetime options)

variable (service : RecordService MemoryCache ρ)

/-- A step changes what stands under a key. -/
def Touches (key : String) (taken : Session MemoryCache × CacheStep) : Prop :=
  taken.2.Removes key ∨ ∃ operation arguments value lifetime,
    Stored service taken operation arguments value lifetime ∧ cacheKey operation arguments = key

/-- The delegate answered a call at some step, and nothing has touched the key of the call since. -/
def Latest (older : List (Session MemoryCache × CacheStep)) (operation : Operation)
    (arguments : Arguments) (value : Json) (stored : Instant) (lifetime : Option Lifetime) : Prop :=
  ∃ before taken after, older = before ++ taken :: after ∧ taken.1.now = stored ∧
    Stored service taken operation arguments value lifetime ∧
    ∀ later ∈ after, ¬ Touches service (cacheKey operation arguments) later

/-- Where the result of a read comes from. -/
inductive Provenance (older : List (Session MemoryCache × CacheStep))
    (session : Session MemoryCache) (reading : RecordRead) (options : CacheOptions)
    (outcome : Except Failure (Yield ρ)) (calls : List Call) : Prop where
  | delegate {arguments : Arguments}
      (final : reading.arguments? service.base = some arguments)
      (sent : calls =
        session.calls ++ [.delegate service.base.delegate.name reading.operation arguments])
      (result : outcome = (service.base.delegate.answer (session.delegateCalls + 1)
        reading.operation arguments).mapError .database >>= reading.decode service)
  | cache {arguments : Arguments} {value : Json} {stored : Instant} {lifetime : Option Lifetime}
      (final : reading.arguments? service.base = some arguments)
      (silent : calls = session.calls)
      (wanted : options.forceRefresh = false)
      (result : outcome = reading.decode service value)
      (present : value.isNull = false)
      (latest : Latest service older reading.operation arguments value stored lifetime)
      (live : ∀ span, lifetime = some span → span = 0 ∨ session.now ≤ stored + span)
  /-- A condition that is not an object makes no call. -/
  | refused {error : DecodeError}
      (final : reading.arguments? service.base = none)
      (silent : calls = session.calls)
      (result : outcome = .error (.invalidRequest error))

/-- An entry under a key is what a call that has the key was last answered. -/
def Accounts (older : List (Session MemoryCache × CacheStep)) (key : String) (entry : CacheEntry) :
    Prop :=
  ∃ operation arguments stored lifetime, cacheKey operation arguments = key ∧ arguments.Apart ∧
    Latest service older operation arguments entry.value stored lifetime ∧
    entry.expiry = MemoryCache.expiry stored lifetime

/-- Every entry of the cache is accounted for by the older steps. -/
def Accounted (older : List (Session MemoryCache × CacheStep)) (cache : MemoryCache) : Prop :=
  ∀ ⦃key entry⦄, cache.find? key = some entry → Accounts service older key entry

variable {service} {older : List (Session MemoryCache × CacheStep)}
  {taken : Session MemoryCache × CacheStep} {operation : Operation} {arguments : Arguments}
  {value : Json} {stored : Instant} {lifetime : Option Lifetime} {key : String} {entry : CacheEntry}
  {cache : MemoryCache}

theorem Latest.snoc (h : Latest service older operation arguments value stored lifetime)
    (htaken : ¬ Touches service (cacheKey operation arguments) taken) :
    Latest service (older ++ [taken]) operation arguments value stored lifetime := by
  obtain ⟨before, origin, after, rfl, hnow, hstored, hafter⟩ := h
  refine ⟨before, origin, after ++ [taken], by simp, hnow, hstored, ?_⟩
  intro later hlater
  rcases List.mem_append.mp hlater with hold | hnew
  · exact hafter later hold
  · obtain rfl := List.mem_singleton.mp hnew
    exact htaken

theorem Latest.present (h : Latest service older operation arguments value stored lifetime) :
    value.isNull = false := by
  obtain ⟨before, taken, after, -, -, hstored, -⟩ := h
  cases hstored with
  | read final sent answer present => exact present

theorem Accounts.snoc (h : Accounts service older key entry)
    (htaken : ¬ Touches service key taken) : Accounts service (older ++ [taken]) key entry := by
  obtain ⟨operation, arguments, stored, lifetime, rfl, hapart, hlatest, hexpiry⟩ := h
  exact ⟨operation, arguments, stored, lifetime, rfl, hapart, hlatest.snoc htaken, hexpiry⟩

/-- The entry under the key of a call comes from that very call. -/
theorem Accounts.exists_latest (h : Accounts service older (cacheKey operation arguments) entry)
    (hapart : arguments.Apart) : ∃ stored lifetime,
      Latest service older operation arguments entry.value stored lifetime ∧
      entry.expiry = MemoryCache.expiry stored lifetime := by
  obtain ⟨origin, other, stored, lifetime, hkey, hother, hlatest, hexpiry⟩ := h
  obtain ⟨rfl, rfl⟩ := cacheKey_injective hother hapart hkey
  exact ⟨stored, lifetime, hlatest, hexpiry⟩

namespace Accounted

theorem empty : Accounted service older MemoryCache.empty := fun _ _ hentry => by cases hentry

theorem present (h : Accounted service older cache) :
    ∀ entry ∈ cache.entries, entry.2.value.isNull = false := by
  rintro ⟨key, entry⟩ hentry
  obtain ⟨operation, arguments, stored, lifetime, -, -, hlatest, -⟩ :=
    h (cache.sorted.get?_of_mem hentry)
  exact hlatest.present

theorem erase (h : Accounted service older cache) (key : String) :
    Accounted service older (cache.erase key) := by
  intro other entry hentry
  rw [MemoryCache.find?_erase, Option.ite_none_left_eq_some] at hentry
  exact h hentry.2

theorem look (h : Accounted service older cache) (forced : Bool) (now : Instant) (key : String) :
    Accounted service older (cache.look forced now key).2 := by
  rcases cache.look_content forced now key with hcontent | hcontent
  · rw [hcontent]
    exact h
  · rw [hcontent]
    exact h.erase key

/-- A step that touches no key of an entry. -/
theorem snoc (h : Accounted service older cache)
    (htaken : ∀ {key entry}, cache.find? key = some entry → ¬ Touches service key taken) :
    Accounted service (older ++ [taken]) cache :=
  fun _ _ hentry => (h hentry).snoc (htaken hentry)

/-- A step that stores an answer under the key of its call. -/
theorem insert (h : Accounted service older cache) (hapart : arguments.Apart)
    (hstored : Stored service taken operation arguments value lifetime)
    (hother : ∀ {key}, key ≠ cacheKey operation arguments → ¬ Touches service key taken) :
    Accounted service (older ++ [taken]) (cache.insert (cacheKey operation arguments)
      ⟨value, MemoryCache.expiry taken.1.now lifetime⟩) := by
  intro key entry hentry
  rw [MemoryCache.find?_insert] at hentry
  split at hentry
  · rename_i hkey
    obtain rfl := Option.some.inj hentry
    exact ⟨operation, arguments, taken.1.now, lifetime, hkey.symm, hapart,
      ⟨older, taken, [], rfl, rfl, hstored, by simp⟩, rfl⟩
  · rename_i hkey
    exact (h hentry).snoc (hother hkey)

end Accounted

/-- A step other than a read touches a key only to remove it. -/
theorem Accounted.snoc_of_not_read {session : Session MemoryCache} {step : CacheStep}
    (h : Accounted service older cache) (hread : ∀ reading options, step ≠ .read reading options)
    (hremoves : ∀ {key entry}, cache.find? key = some entry → ¬ step.Removes key) :
    Accounted service (older ++ [(session, step)]) cache := by
  apply h.snoc
  rintro key entry hentry (hremoved | ⟨operation, arguments, value, lifetime, hstored, -⟩)
  · exact hremoves hentry hremoved
  · cases hstored with
    | read => exact hread _ _ rfl

/-- A read touches a key only to store an answer under it. -/
theorem not_touches_of_read {session : Session MemoryCache} {reading : RecordRead}
    {options : CacheOptions}
    (hstored : ∀ {arguments value}, reading.arguments? service.base = some arguments →
      (runFrom session (reading.run service options)).2.calls =
        session.calls ++ [.delegate service.base.delegate.name reading.operation arguments] →
      service.base.delegate.answer (session.delegateCalls + 1) reading.operation arguments =
        .ok value →
      value.isNull = false → cacheKey reading.operation arguments ≠ key) :
    ¬ Touches service key (session, .read reading options) := by
  rintro (h | ⟨operation, arguments, value, lifetime, hread, hkey⟩)
  · exact h
  · cases hread with
    | read final sent answer present => exact hstored final sent answer present hkey

theorem RecordWrite.cache_run (service : RecordService MemoryCache ρ) (writing : RecordWrite)
    (session : Session MemoryCache) :
    (runFrom session (writing.run service)).2.cache = session.cache := by
  have hframe : Frame fun before after : Session MemoryCache => after.cache = before.cache :=
    ⟨fun hfirst hsecond => hsecond.trans hfirst, fun _ _ => rfl⟩
  have hsend : ∀ arguments, Moves (fun before after => after.cache = before.cache)
      (service.base.send (writing.operation service.base.config.marker) arguments) := by
    intro arguments session
    rw [Service.runFrom_send]
  exact writing.moves_run hframe service hsend session

/-- A read leaves a cache that is accounted for. -/
theorem Accounted.read {session : Session MemoryCache} {reading : RecordRead}
    {options : CacheOptions} (hcache : service.base.config.cache = some MemoryCache.adapter)
    (hadmissible : (CacheStep.read reading options).Admissible service session)
    (h : Accounted service older session.cache) :
    Accounted service (older ++ [(session, .read reading options)])
      (runFrom session (reading.run service options)).2.cache := by
  obtain ⟨hkey, hapart, hlifetime⟩ := hadmissible
  cases harguments : reading.arguments? service.base with
  | none =>
    obtain ⟨error, events, hrun⟩ := reading.exists_refused harguments options session
    rw [hrun]
    refine h.snoc fun _ => not_touches_of_read fun hfinal => ?_
    cases harguments.symm.trans hfinal
  | some arguments =>
    obtain ⟨outcome, hserved, -⟩ := reading.exists_served hcache hkey hlifetime harguments
    have hleft := h.look options.forceRefresh session.now (cacheKey reading.operation arguments)
    generalize hlater : (runFrom session (reading.run service options)).2 = later at hserved
    -- only an answer other than null is stored, so in all other cases no key is touched
    cases hserved with
    | hit found calls content =>
      rw [content]
      refine hleft.snoc fun _ => not_touches_of_read fun hfinal hsent => ?_
      rw [hlater, calls] at hsent
      simp at hsent
    | failed answer calls content =>
      rw [content]
      refine hleft.snoc fun _ => not_touches_of_read fun hfinal hsent hanswer => ?_
      obtain rfl := Option.some.inj (harguments.symm.trans hfinal)
      cases answer.symm.trans hanswer
    | @answered value _ answer calls content =>
      rw [content]
      cases hnull : value.isNull with
      | true =>
        refine hleft.snoc fun _ => not_touches_of_read fun hfinal hsent hanswer hpresent => ?_
        obtain rfl := Option.some.inj (harguments.symm.trans hfinal)
        obtain rfl := Except.ok.inj (answer.symm.trans hanswer)
        cases hnull.symm.trans hpresent
      | false =>
        refine hleft.insert (reading.apart_of_arguments? hapart harguments)
          (.read harguments (hlater ▸ calls) answer hnull) fun hother => not_touches_of_read ?_
        intro second _ hfinal _ _ _
        obtain rfl := Option.some.inj (harguments.symm.trans hfinal)
        exact hother.symm

theorem Accounted.act {session : Session MemoryCache} {step : CacheStep}
    (hcache : service.base.config.cache = some MemoryCache.adapter)
    (hadmissible : step.Admissible service session)
    (h : Accounted service older session.cache) :
    Accounted service (older ++ [(session, step)]) (step.act service session).cache := by
  cases step with
  | read reading options => exact h.read hcache hadmissible
  | write writing =>
    have hcontent : (CacheStep.act service (.write writing) session).cache = session.cache :=
      writing.cache_run service session
    rw [hcontent]
    exact h.snoc_of_not_read (by rintro _ _ ⟨⟩) fun _ => id
  | del key =>
    apply (h.erase key).snoc_of_not_read (by rintro _ _ ⟨⟩)
    intro other entry hentry
    rw [MemoryCache.find?_erase, Option.ite_none_left_eq_some] at hentry
    exact Ne.symm hentry.1
  | clear => exact .empty
  | pass elapsed => exact h.snoc_of_not_read (by rintro _ _ ⟨⟩) fun _ => id

/-- Throughout a run from an empty cache, the cache is accounted for. -/
theorem accounted_runSteps (hcache : service.base.config.cache = some MemoryCache.adapter)
    {start : Session MemoryCache} (hstart : start.cache = MemoryCache.empty)
    (steps : List CacheStep)
    (hadmissible : ∀ taken ∈ history (CacheStep.act service) start steps,
      taken.2.Admissible service taken.1) :
    Accounted service (history (CacheStep.act service) start steps)
      (runSteps (CacheStep.act service) start steps).cache := by
  -- from the end of the run, where each step extends the history
  induction steps using List.reverseRecOn with
  | nil =>
    rw [show (runSteps (CacheStep.act service) start []).cache = MemoryCache.empty from hstart]
    exact .empty
  | append_singleton steps step ih =>
    rw [history_append] at hadmissible ⊢
    rw [runSteps_append]
    obtain ⟨holder, hstep⟩ := List.forall_mem_append.mp hadmissible
    exact (ih holder).act hcache (hstep _ List.mem_cons_self)

/-- A read served from an accounted cache. -/
theorem Accounted.provenance {session : Session MemoryCache} {reading : RecordRead}
    {options : CacheOptions} (hcache : service.base.config.cache = some MemoryCache.adapter)
    (hadmissible : (CacheStep.read reading options).Admissible service session)
    (h : Accounted service older session.cache) :
    Provenance service older session reading options
      (runFrom session (reading.run service options)).1
      (runFrom session (reading.run service options)).2.calls := by
  obtain ⟨hkey, hapart, hlifetime⟩ := hadmissible
  cases harguments : reading.arguments? service.base with
  | none =>
    obtain ⟨error, events, hrun⟩ := reading.exists_refused harguments options session
    rw [hrun]
    exact .refused harguments rfl rfl
  | some arguments =>
    obtain ⟨outcome, hserved, hresult⟩ := reading.exists_served hcache hkey hlifetime harguments
    rw [hresult]
    generalize (runFrom session (reading.run service options)).2 = later at hserved ⊢
    cases hserved with
    | hit found calls content =>
      obtain ⟨hwanted, hpresent, entry, hentry, rfl, hlive⟩ := MemoryCache.exists_of_look found
      obtain ⟨stored, lifetime, hlatest, hexpiry⟩ :=
        (h hentry).exists_latest (reading.apart_of_arguments? hapart harguments)
      exact .cache harguments calls hwanted rfl hpresent hlatest
        ((MemoryCache.isExpired_eq_false_iff hexpiry).mp hlive)
    | failed answer calls content =>
      exact .delegate harguments calls (by rw [answer]; rfl)
    | answered answer calls content =>
      exact .delegate harguments calls (by rw [answer]; rfl)

namespace RecordService

/-- Every read of a run from an empty cache is put to the delegate once, or is served with what the
delegate last answered to the same call, while that is live. No value in the cache is null. -/
theorem reads_are_fresh (service : RecordService MemoryCache ρ)
    (hcache : service.base.config.cache = some MemoryCache.adapter)
    {start : Session MemoryCache} (hstart : start.cache = MemoryCache.empty)
    (steps : List CacheStep)
    (hadmissible : ∀ taken ∈ history (CacheStep.act service) start steps,
      taken.2.Admissible service taken.1) :
    (∀ older session reading options later,
      history (CacheStep.act service) start steps =
        older ++ (session, .read reading options) :: later →
      Provenance service older session reading options
        (runFrom session (reading.run service options)).1
        (runFrom session (reading.run service options)).2.calls) ∧
    ∀ entry ∈ (runSteps (CacheStep.act service) start steps).cache.entries,
      entry.2.value.isNull = false := by
  refine ⟨?_, (accounted_runSteps hcache hstart steps hadmissible).present⟩
  intro older session reading options later hhistory
  rw [hhistory] at hadmissible
  obtain ⟨holder, hrest⟩ := List.forall_mem_append.mp hadmissible
  obtain ⟨earlier, rfl, rfl⟩ := exists_of_history_eq (CacheStep.act service) hhistory
  exact (accounted_runSteps hcache hstart earlier holder).provenance hcache
    (hrest _ List.mem_cons_self)

/-- A service whose delegate answers with the number of the call, kept for ten nanoseconds. -/
def counting : RecordService MemoryCache Unit where
  base := {
    delegate := ⟨"account", fun number _ _ => .ok (.int number)⟩
    store := ⟨fun _ => .ok [], fun _ => none⟩
    config := { cache := some MemoryCache.adapter, lifetime := some 10 }
    stamp _ := "2024-01-01T00:00:00.000Z" }
  record := ⟨"Account", fun _ => .ok ()⟩

/-- A read, a wait, and the same read again: within the lifetime it is served with the first answer
and makes no call. -/
theorem reads_are_fresh_within_lifetime :
    let ask : CacheStep := .read (.aggregate .empty) {}
    let start : Session MemoryCache := { cache := MemoryCache.empty }
    let session := runSteps (CacheStep.act counting) start [ask, .pass 10]
    Provenance counting (history (CacheStep.act counting) start [ask, .pass 10]) session
      (.aggregate .empty) {} (.ok (.value (.int 1))) session.calls := by
  intro ask start session
  have hadmissible : ∀ taken ∈ history (CacheStep.act counting) start [ask, .pass 10, ask],
      taken.2.Admissible counting taken.1 := by
    have hask : ∀ {session : Session MemoryCache},
        (MemoryCache.expiry session.now (some 10)).all (· < MemoryCache.clockEnd) →
        ask.Admissible counting session :=
      fun hclock => ⟨rfl, nofun, hclock⟩
    refine List.forall_mem_cons.mpr ⟨hask (by decide), ?_⟩
    refine List.forall_mem_cons.mpr ⟨trivial, ?_⟩
    exact List.forall_mem_singleton.mpr (hask (by decide))
  exact (counting.reads_are_fresh rfl rfl [ask, .pass 10, ask] hadmissible).1 _ _ _ _ [] rfl

end RecordService

end RecordQuery
