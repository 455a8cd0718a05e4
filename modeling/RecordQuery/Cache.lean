import RecordQuery.Json

/-!
# Caches of results

An adapter reads, writes and removes results under keys; its content is a state of its own type. The
memory cache keeps for each key a value and the last instant at which it is live. An entry that has
expired is removed when it is read, and counted until then.
-/

namespace RecordQuery

/-- Nanoseconds since the clock started. -/
abbrev Instant := Nat

/-- Nanoseconds for which an entry is live. -/
abbrev Lifetime := Nat

def Lifetime.second : Lifetime := 10 ^ 9

inductive CacheError where
  | refused (message : String) (source : Option String := none)
  /-- The expiry of an entry is beyond the last instant that the clock can name. -/
  | clockOverflow
  deriving DecidableEq, Repr, Inhabited

def CacheError.message : CacheError → String
  | refused message _ => message
  | clockOverflow => "overflow when adding duration to instant"

/-- A store of results, by what its operations do to its content. -/
structure CacheAdapter (σ : Type) where
  get : Instant → (key : String) → σ → Except CacheError (Option Json) × σ
  set : Instant → (key : String) → Json → Option Lifetime → σ → Except CacheError Unit × σ
  del : (key : String) → σ → Except CacheError Unit × σ

structure CacheEntry where
  value : Json
  expiry : Option Instant
  deriving DecidableEq, Inhabited

/-- An entry is live up to and including the instant of its expiry. -/
def CacheEntry.isExpired (entry : CacheEntry) (now : Instant) : Bool :=
  entry.expiry.any (· < now)

/-- At most one entry a key, in the order of the keys. -/
structure MemoryCache where
  entries : Entries CacheEntry := []
  sorted : entries.Sorted := by decide

namespace MemoryCache

def empty : MemoryCache := {}

instance : Inhabited MemoryCache := ⟨empty⟩

/-- The entry under a key, whether it has expired or not. -/
def find? (cache : MemoryCache) (key : String) : Option CacheEntry := cache.entries.get? key

def insert (cache : MemoryCache) (key : String) (entry : CacheEntry) : MemoryCache :=
  ⟨cache.entries.insert key entry, cache.sorted.insert key entry⟩

def erase (cache : MemoryCache) (key : String) : MemoryCache :=
  ⟨cache.entries.erase key, cache.sorted.erase key⟩

/-- How many entries there are, with those that have expired. -/
def length (cache : MemoryCache) : Nat := cache.entries.length

@[simp] theorem find?_empty (key : String) : empty.find? key = none := rfl

@[simp] theorem find?_insert (cache : MemoryCache) (key other : String) (entry : CacheEntry) :
    (cache.insert key entry).find? other =
      if other = key then some entry else cache.find? other :=
  cache.entries.get?_insert key other entry

@[simp] theorem find?_erase (cache : MemoryCache) (key other : String) :
    (cache.erase key).find? other = if other = key then none else cache.find? other :=
  cache.sorted.get?_erase key other

/-- Reads the value at a key and removes it if it has expired. -/
def get (now : Instant) (key : String) (cache : MemoryCache) : Option Json × MemoryCache :=
  match cache.find? key with
  | none => (none, cache)
  | some entry =>
    if entry.isExpired now then (none, cache.erase key) else (some entry.value, cache)

/-- The first instant that the clock cannot name: it counts seconds in a signed word of 64 bits, and
has counted one when it starts. -/
def clockEnd : Instant := (2 ^ 63 - 1) * Lifetime.second

/-- The expiry of an entry that is stored now; without a lifetime, or with one of zero, there is
none. -/
def expiry (now : Instant) (lifetime : Option Lifetime) : Option Instant :=
  (lifetime.filter (· ≠ 0)).map (now + ·)

/-- Stored with a lifetime, a value is live just until its end; a lifetime of zero has none. -/
theorem isExpired_eq_false_iff {stored now : Instant} {lifetime : Option Lifetime}
    {entry : CacheEntry} (hexpiry : entry.expiry = expiry stored lifetime) :
    entry.isExpired now = false ↔
      ∀ span, lifetime = some span → span = 0 ∨ now ≤ stored + span := by
  rw [CacheEntry.isExpired, hexpiry]
  cases lifetime with
  | none => simp [expiry]
  | some span =>
    by_cases hzero : span = 0
    · simp [expiry, Option.filter, hzero]
    · simp [expiry, Option.filter, hzero]

/-- A value is live at the instant at which it is stored. -/
theorem isExpired_of_stored (now : Instant) (value : Json) (lifetime : Option Lifetime) :
    (CacheEntry.mk value (expiry now lifetime)).isExpired now = false :=
  (isExpired_eq_false_iff rfl).mpr fun span _ => .inr (Nat.le_add_right now span)

/-- Stores a value under a key, replacing value and expiry of an entry there. -/
def set (now : Instant) (key : String) (value : Json) (lifetime : Option Lifetime)
    (cache : MemoryCache) : Except CacheError MemoryCache :=
  if (expiry now lifetime).all (· < clockEnd) then
    .ok (cache.insert key ⟨value, expiry now lifetime⟩)
  else .error .clockOverflow

theorem set_eq_ok {now : Instant} {lifetime : Option Lifetime}
    (h : (expiry now lifetime).all (· < clockEnd)) (key : String) (value : Json)
    (cache : MemoryCache) :
    cache.set now key value lifetime = .ok (cache.insert key ⟨value, expiry now lifetime⟩) :=
  if_pos h

theorem eq_insert_of_set {now : Instant} {key : String} {value : Json} {lifetime : Option Lifetime}
    {cache next : MemoryCache} (h : cache.set now key value lifetime = .ok next) :
    next = cache.insert key ⟨value, expiry now lifetime⟩ := by
  unfold set at h
  split at h
  · exact (Except.ok.inj h).symm
  · cases h

/-- A value can be read at the instant at which it is stored. -/
theorem get_of_set {now : Instant} {key : String} {value : Json} {lifetime : Option Lifetime}
    {cache next : MemoryCache} (h : cache.set now key value lifetime = .ok next) :
    next.get now key = (some value, next) := by
  obtain rfl := eq_insert_of_set h
  simp [get, isExpired_of_stored]

def del (key : String) (cache : MemoryCache) : MemoryCache := cache.erase key

def adapter : CacheAdapter MemoryCache where
  get now key cache := let (found, rest) := cache.get now key; (.ok found, rest)
  set now key value lifetime cache :=
    match cache.set now key value lifetime with
    | .ok next => (.ok (), next)
    | .error cause => (.error cause, cache)
  del key cache := (.ok (), cache.del key)

end MemoryCache

end RecordQuery
