import Mathlib.Data.List.Induction
import Mathlib.Data.List.Perm.Subperm
import Mathlib.Logic.Function.Basic
import RecordQuery.Proofs.Calls
import RecordQuery.Proofs.Entries
import RecordQuery.Proofs.Reads

/-!
# The memory cache as a timed map

A timed map drops an entry at the instant at which it expires. The memory cache keeps expired
entries until they are read, but at every instant its live entries are those of a timed map that
takes the same steps. So a lookup is told by the last step on its key and by the clock, and not by
the lookups before it.
-/

namespace RecordQuery

namespace MemoryCache

/-- A step of a run on a memory cache. -/
inductive Step where
  | get (key : String)
  | set (key : String) (value : Json) (lifetime : Option Lifetime)
  | del (key : String)
  | clear
  | pass (elapsed : Nat)

/-- What a lookup answers. -/
def reply (session : Session MemoryCache) (key : String) : Option Json :=
  (session.cache.get session.now key).1

namespace Step

def act (step : Step) (session : Session MemoryCache) : Session MemoryCache :=
  match step with
  | get key => { session with cache := (session.cache.get session.now key).2 }
  | set key value lifetime =>
    { session with cache := (adapter.set session.now key value lifetime session.cache).2 }
  | del key => { session with cache := session.cache.del key }
  | clear => { session with cache := empty }
  | pass elapsed => { session with now := session.now + elapsed }

/-- The clock can name the end of the lifetime. -/
def Admissible (session : Session MemoryCache) : Step → Prop
  | set _ _ lifetime => (expiry session.now lifetime).all (· < clockEnd)
  | _ => True

instance (session : Session MemoryCache) : DecidablePred (Admissible session)
  | set _ _ _ => inferInstanceAs (Decidable (_ = true))
  | get _ | del _ | clear | pass _ => .isTrue trivial

/-- The step decides what stands under the key. -/
def Decides (key : String) : Step → Prop
  | set other _ _ | del other => other = key
  | clear => True
  | _ => False

def isGet : Step → Bool
  | get _ => true
  | _ => false

end Step

/-- The entries under their keys, without those that have expired. -/
abbrev TimedMap := String → Option CacheEntry

/-- The entry unless it has expired. -/
def live (now : Instant) (entry : Option CacheEntry) : Option CacheEntry :=
  entry.filter fun entry => !entry.isExpired now

/-- A step of a timed map, from the instant at which it is taken. -/
def Step.onMap (step : Step) (now : Instant) (map : TimedMap) : TimedMap :=
  match step with
  | get _ => map
  | set key value lifetime => Function.update map key (some ⟨value, expiry now lifetime⟩)
  | del key => Function.update map key none
  | clear => fun _ => none
  | pass elapsed => fun key => live (now + elapsed) (map key)

/-- The live entries of a session. -/
def content (session : Session MemoryCache) : TimedMap :=
  fun key => live session.now (session.cache.find? key)

theorem live_eq_some_iff (now : Instant) (found : Option CacheEntry) (entry : CacheEntry) :
    live now found = some entry ↔ found = some entry ∧ entry.isExpired now = false := by
  simp [live, Option.filter_eq_some_iff]

theorem isExpired_mono {entry : CacheEntry} {now later : Instant} (hle : now ≤ later)
    (h : entry.isExpired now = true) : entry.isExpired later = true := by
  unfold CacheEntry.isExpired at h ⊢
  cases hexpiry : entry.expiry with
  | none => simp [hexpiry] at h
  | some last =>
    simp only [hexpiry, Option.any_some, decide_eq_true_eq] at h ⊢
    exact Nat.lt_of_lt_of_le h hle

/-- What is live later is live now. -/
theorem live_live {now later : Instant} (hle : now ≤ later) (found : Option CacheEntry) :
    live later (live now found) = live later found := by
  cases found with
  | none => rfl
  | some entry =>
    cases hexpired : entry.isExpired now with
    | false => simp [live, Option.filter, hexpired]
    | true => simp [live, Option.filter, hexpired, isExpired_mono hle hexpired]

theorem reply_eq (session : Session MemoryCache) (key : String) :
    reply session key = (content session key).map (·.value) := by
  unfold reply content live get
  cases session.cache.find? key with
  | none => rfl
  | some entry => cases hexpired : entry.isExpired session.now <;> simp [hexpired, Option.filter]

/-- A lookup leaves the live entries as they are. -/
theorem content_get (session : Session MemoryCache) (key : String) :
    content ((Step.get key).act session) = content session := by
  funext other
  simp only [content, Step.act, get]
  split
  · rfl
  · rename_i entry hentry
    split
    · rename_i hexpired
      rw [find?_erase]
      split
      · rename_i hkey
        rw [hkey, hentry]
        simp [live, Option.filter, hexpired]
      · rfl
    · rfl

/-- The live entries of a session take every step as a timed map does. -/
theorem content_act {session : Session MemoryCache} {step : Step}
    (hadmissible : step.Admissible session) :
    content (step.act session) = step.onMap session.now (content session) := by
  cases step with
  | get key => exact content_get session key
  | set key value lifetime =>
    have hset := set_eq_ok hadmissible key value session.cache
    have hlive := isExpired_of_stored session.now value lifetime
    funext other
    simp only [content, Step.act, adapter, hset, find?_insert, Step.onMap, Function.update_apply]
    split
    · exact (live_eq_some_iff _ _ _).mpr ⟨rfl, hlive⟩
    · rfl
  | del key =>
    funext other
    simp only [content, Step.act, MemoryCache.del, find?_erase, Step.onMap, Function.update_apply]
    split
    · rfl
    · rfl
  | clear => rfl
  | pass elapsed =>
    funext key
    exact (live_live (Nat.le_add_right _ _) _).symm

theorem now_act_of_isGet {step : Step} (h : step.isGet = true) (session : Session MemoryCache) :
    (step.act session).now = session.now := by
  cases step with
  | get key => rfl
  | _ => cases h

/-- Two sessions with the same live entries keep them alike when one of them makes the lookups of a
run and the other leaves them out. -/
theorem content_without_gets {session other : Session MemoryCache}
    (hnow : session.now = other.now) (hcontent : content session = content other)
    (steps : List Step)
    (hadmissible : ∀ taken ∈ history Step.act session steps, taken.2.Admissible taken.1) :
    content (runSteps Step.act session steps) =
      content (runSteps Step.act other (steps.filter (!·.isGet))) := by
  induction steps generalizing session other with
  | nil => exact hcontent
  | cons step rest ih =>
    obtain ⟨hstep, hrest⟩ := List.forall_mem_cons.mp hadmissible
    cases hget : step.isGet with
    | true =>
      have hsame : content (step.act session) = content session := by
        cases step with
        | get key => exact content_get session key
        | _ => cases hget
      rw [runSteps_cons, List.filter_cons_of_neg (by simp [hget])]
      exact ih ((now_act_of_isGet hget session).trans hnow) (hsame.trans hcontent) hrest
    | false =>
      have hadmissibleOther : step.Admissible other := by
        cases step with
        | set key value lifetime =>
          unfold Step.Admissible
          rw [← hnow]
          exact hstep
        | _ => trivial
      rw [runSteps_cons, List.filter_cons_of_pos (by simp [hget]), runSteps_cons]
      refine ih ?_ ?_ hrest
      · cases step <;> simp [Step.act, hnow]
      · rw [content_act hstep, content_act hadmissibleOther, hcontent, hnow]

/-- The last step that decides what stands under the key has stored the value there. -/
def LastStored (older : List (Session MemoryCache × Step)) (key : String) (value : Json)
    (stored : Instant) (lifetime : Option Lifetime) : Prop :=
  ∃ before origin after, older = before ++ (origin, .set key value lifetime) :: after ∧
    origin.now = stored ∧ ∀ later ∈ after, ¬ later.2.Decides key

section LastStored

variable {older : List (Session MemoryCache × Step)} {session : Session MemoryCache} {step : Step}
  {key : String} {value : Json} {stored : Instant} {lifetime : Option Lifetime}

theorem not_lastStored_nil : ¬ LastStored [] key value stored lifetime := by
  rintro ⟨before, origin, after, heq, -⟩
  simp at heq

/-- A step either decides what stands under the key or leaves it to the steps before it. -/
theorem lastStored_snoc_iff :
    LastStored (older ++ [(session, step)]) key value stored lifetime ↔
      step = .set key value lifetime ∧ session.now = stored ∨
        ¬ step.Decides key ∧ LastStored older key value stored lifetime := by
  constructor
  · rintro ⟨before, origin, after, heq, hstored, hafter⟩
    rcases List.eq_nil_or_concat after with rfl | ⟨others, last, rfl⟩
    · obtain ⟨-, hlast⟩ := List.append_inj' heq rfl
      obtain ⟨rfl, rfl⟩ := Prod.mk.inj (List.cons.inj hlast).1
      exact .inl ⟨rfl, hstored⟩
    · have heqLast : older ++ [(session, step)] =
          (before ++ (origin, .set key value lifetime) :: others) ++ [last] := by
        rw [heq, List.append_assoc, List.cons_append, List.concat_eq_append]
      obtain ⟨hold, hlast⟩ := List.append_inj' heqLast rfl
      obtain rfl := List.singleton_inj.mp hlast
      rw [List.concat_eq_append] at hafter
      obtain ⟨hothers, hstep⟩ := List.forall_mem_append.mp hafter
      exact .inr ⟨hstep _ List.mem_cons_self, before, origin, others, hold, hstored, hothers⟩
  · rintro (⟨rfl, hstored⟩ | ⟨hstep, before, origin, after, rfl, hstored, hafter⟩)
    · exact ⟨older, session, [], rfl, hstored, by simp⟩
    · refine ⟨before, origin, after ++ [(session, step)], by simp, hstored, ?_⟩
      exact List.forall_mem_append.mpr ⟨hafter, by simpa using hstep⟩

/-- The entry is what the last step that decides what stands under the key has stored there. -/
def Standing (older : List (Session MemoryCache × Step)) (key : String) (entry : CacheEntry) :
    Prop :=
  ∃ stored lifetime, LastStored older key entry.value stored lifetime ∧
    entry.expiry = expiry stored lifetime

theorem standing_snoc_iff (entry : CacheEntry) :
    Standing (older ++ [(session, step)]) key entry ↔
      (∃ lifetime, step = .set key entry.value lifetime ∧
        entry.expiry = expiry session.now lifetime) ∨
      ¬ step.Decides key ∧ Standing older key entry := by
  simp only [Standing, lastStored_snoc_iff]
  constructor
  · rintro ⟨stored, lifetime, ⟨hstep, rfl⟩ | ⟨hstep, hlast⟩, hexpiry⟩
    · exact .inl ⟨lifetime, hstep, hexpiry⟩
    · exact .inr ⟨hstep, stored, lifetime, hlast, hexpiry⟩
  · rintro (⟨lifetime, hstep, hexpiry⟩ | ⟨hstep, stored, lifetime, hlast, hexpiry⟩)
    · exact ⟨session.now, lifetime, .inl ⟨hstep, rfl⟩, hexpiry⟩
    · exact ⟨stored, lifetime, .inr ⟨hstep, hlast⟩, hexpiry⟩

end LastStored

/-- The live entries are those that the last steps on their keys have stored. -/
def Told (older : List (Session MemoryCache × Step)) (session : Session MemoryCache) : Prop :=
  ∀ key entry, content session key = some entry ↔
    Standing older key entry ∧ entry.isExpired session.now = false

theorem Told.act {older : List (Session MemoryCache × Step)} {session : Session MemoryCache}
    (h : Told older session) {step : Step} (hadmissible : step.Admissible session) :
    Told (older ++ [(session, step)]) (step.act session) := by
  intro key entry
  have hearlier := h key entry
  rw [content_act hadmissible, standing_snoc_iff]
  cases step with
  | get other => simpa [Step.onMap, Step.Decides, Step.act] using hearlier
  | set other value lifetime =>
    by_cases hkey : other = key
    · subst hkey
      have hlive := isExpired_of_stored session.now value lifetime
      constructor
      · intro hentry
        obtain rfl : ⟨value, expiry session.now lifetime⟩ = entry := by
          simpa [Step.onMap] using hentry
        exact ⟨.inl ⟨lifetime, rfl, rfl⟩, hlive⟩
      · rintro ⟨⟨span, hstep, hexpiry⟩ | ⟨hdecides, -⟩, -⟩
        · obtain ⟨-, hvalue, rfl⟩ := Step.set.inj hstep
          simp [Step.onMap, hvalue, ← hexpiry]
        · exact absurd rfl hdecides
    · simpa [Step.onMap, Step.Decides, Step.act, hkey, Function.update_apply, Ne.symm hkey]
        using hearlier
  | del other =>
    by_cases hkey : other = key
    · simp [Step.onMap, Step.Decides, hkey]
    · simpa [Step.onMap, Step.Decides, Step.act, hkey, Function.update_apply, Ne.symm hkey]
        using hearlier
  | clear => simp [Step.onMap, Step.Decides]
  | pass elapsed =>
    have hlive : entry.isExpired (session.now + elapsed) = false →
        entry.isExpired session.now = false := by
      intro hlater
      cases hnow : entry.isExpired session.now with
      | false => rfl
      | true =>
        rw [isExpired_mono (Nat.le_add_right _ elapsed) hnow] at hlater
        cases hlater
    simp only [Step.onMap, live_eq_some_iff, hearlier, Step.Decides, Step.act, reduceCtorEq,
      false_and, exists_const, not_false_eq_true, true_and, false_or, and_assoc]
    exact and_congr_right fun _ => ⟨And.right, fun hlater => ⟨hlive hlater, hlater⟩⟩

/-- The induction is from the end of the run, where each step extends the history. -/
theorem told_runSteps {start : Session MemoryCache} (hstart : start.cache = empty)
    (steps : List Step)
    (hadmissible : ∀ taken ∈ history Step.act start steps, taken.2.Admissible taken.1) :
    Told (history Step.act start steps) (runSteps Step.act start steps) := by
  induction steps using List.reverseRecOn with
  | nil =>
    intro key entry
    have hnone : content start key = none := by
      simp [content, hstart, live]
    have hnothing : ¬ Standing [] key entry := by
      rintro ⟨stored, lifetime, hlast, -⟩
      exact not_lastStored_nil hlast
    simpa [history, runSteps, hnone] using fun h => absurd h hnothing
  | append_singleton steps step ih =>
    rw [history_append] at hadmissible ⊢
    rw [runSteps_append]
    obtain ⟨holder, hstep⟩ := List.forall_mem_append.mp hadmissible
    exact (ih holder).act (hstep _ List.mem_cons_self)

theorem reply_eq_some_iff {older : List (Session MemoryCache × Step)}
    {session : Session MemoryCache} (h : Told older session) (key : String) (value : Json) :
    reply session key = some value ↔
      ∃ stored lifetime, LastStored older key value stored lifetime ∧
        ∀ span, lifetime = some span → span = 0 ∨ session.now ≤ stored + span := by
  rw [reply_eq, Option.map_eq_some_iff]
  constructor
  · rintro ⟨entry, hentry, rfl⟩
    obtain ⟨⟨stored, lifetime, hlast, hexpiry⟩, hlive⟩ := (h key entry).mp hentry
    exact ⟨stored, lifetime, hlast, (isExpired_eq_false_iff hexpiry).mp hlive⟩
  · rintro ⟨stored, lifetime, hlast, hlive⟩
    exact ⟨⟨value, expiry stored lifetime⟩, (h key _).mpr ⟨⟨stored, lifetime, hlast, rfl⟩,
      (isExpired_eq_false_iff rfl).mpr hlive⟩, rfl⟩

/-- A key whose lookup answers has an entry. -/
theorem mem_keys_of_reply {session : Session MemoryCache} {key : String}
    (h : reply session key ≠ none) : key ∈ session.cache.entries.map (·.1) := by
  rw [← Entries.isSome_get?_iff, Option.isSome_iff_ne_none]
  intro hnone
  apply h
  rw [reply, get, find?, hnone]

/-- In a run from an empty cache a lookup answers with a value just if the last step that decides
what stands under its key has stored the value there, and its lifetime, if it has one, is not over.
The lookups before it make no difference to what a lookup answers, and there are at least as many
entries as keys whose lookup answers. -/
theorem refines_timed_map {start : Session MemoryCache} (hstart : start.cache = empty)
    (steps : List Step)
    (hadmissible : ∀ taken ∈ history Step.act start steps, taken.2.Admissible taken.1) :
    (∀ older session key later,
      history Step.act start steps = older ++ (session, .get key) :: later →
      ∀ value, reply session key = some value ↔
        ∃ stored lifetime, LastStored older key value stored lifetime ∧
          ∀ span, lifetime = some span → span = 0 ∨ session.now ≤ stored + span) ∧
    (∀ key, reply (runSteps Step.act start steps) key =
      reply (runSteps Step.act start (steps.filter (!·.isGet))) key) ∧
    ∀ keys : List String, keys.Nodup →
      (∀ key ∈ keys, reply (runSteps Step.act start steps) key ≠ none) →
      keys.length ≤ (runSteps Step.act start steps).cache.length := by
  refine ⟨?_, fun key => ?_, fun keys hkeys hreply => ?_⟩
  · intro older session key later hhistory
    rw [hhistory] at hadmissible
    obtain ⟨holder, -⟩ := List.forall_mem_append.mp hadmissible
    obtain ⟨earlier, rfl, rfl⟩ := exists_of_history_eq Step.act hhistory
    exact reply_eq_some_iff (told_runSteps hstart earlier holder) key
  · rw [reply_eq, reply_eq, content_without_gets rfl rfl steps hadmissible]
  · have hsubset : keys ⊆ (runSteps Step.act start steps).cache.entries.map (·.1) :=
      fun key hkey => mem_keys_of_reply (hreply key hkey)
    have hlength := (List.subperm_of_subset hkeys hsubset).length_le
    rwa [List.length_map] at hlength

/-- A value with a lifetime of ten nanoseconds is found at their end and not a nanosecond later,
when a lookup of it has removed it or not. -/
theorem refines_timed_map_past_lifetime :
    let start : Session MemoryCache := { cache := empty }
    let early : List Step := [.set "a" (.int 1) (some 10), .pass 10]
    let steps : List Step := early ++ [.get "a", .pass 1, .get "a"]
    reply (runSteps Step.act start early) "a" = some (.int 1) ∧
      reply (runSteps Step.act start steps) "a" =
        reply (runSteps Step.act start (early ++ [.pass 1])) "a" ∧
      reply (runSteps Step.act start (early ++ [.pass 1])) "a" = none := by
  intro start early steps
  have hadmissible : ∀ taken ∈ history Step.act start steps, taken.2.Admissible taken.1 := by
    decide
  obtain ⟨hreply, hlookups, -⟩ := refines_timed_map rfl steps hadmissible
  have hhistory : history Step.act start steps = history Step.act start early ++
      (runSteps Step.act start early, .get "a") :: [(_, .pass 1), (_, .get "a")] := rfl
  refine ⟨(hreply _ _ "a" _ hhistory (.int 1)).mpr ?_, hlookups "a", rfl⟩
  refine ⟨0, some 10, ⟨[], start, [(_, .pass 10)], rfl, rfl, ?_⟩, ?_⟩
  · simp [Step.Decides]
  · rintro span ⟨⟩
    exact .inr (by decide)

end MemoryCache

end RecordQuery
