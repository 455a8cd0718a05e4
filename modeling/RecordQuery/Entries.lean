/-!
# Entries

Values under keys. The operations keep entries in the order of their keys, one entry a key. Keys are
ordered by code points.
-/

namespace RecordQuery

/-- Values under keys. -/
abbrev Entries (α : Type) := List (String × α)

namespace Entries

variable {α : Type}

def get? : Entries α → String → Option α
  | [], _ => none
  | (k, v) :: rest, key => if key = k then some v else get? rest key

def contains (entries : Entries α) (key : String) : Bool := (entries.get? key).isSome

/-- The entry at `key` replaced, or put in front of the first greater key. -/
def insert : Entries α → String → α → Entries α
  | [], key, value => [(key, value)]
  | (k, v) :: rest, key, value =>
    if key = k then (key, value) :: rest
    else if key < k then (key, value) :: (k, v) :: rest
    else (k, v) :: insert rest key value

/-- Inserts the entries in turn, so the last one for a key stays. -/
def insertAll (entries more : Entries α) : Entries α :=
  more.foldl (fun acc entry => insert acc entry.1 entry.2) entries

def ofList (entries : List (String × α)) : Entries α := insertAll [] entries

def erase : Entries α → String → Entries α
  | [], _ => []
  | (k, v) :: rest, key => if key = k then rest else (k, v) :: erase rest key

/-- Each key is less than those after it. -/
def Sorted (entries : Entries α) : Prop := entries.Pairwise (·.1 < ·.1)

instance (entries : Entries α) : Decidable (Sorted entries) :=
  inferInstanceAs (Decidable (entries.Pairwise (·.1 < ·.1)))

@[simp] theorem get?_insert_self (entries : Entries α) (key : String) (value : α) :
    (entries.insert key value).get? key = some value := by
  induction entries with
  | nil => simp [insert, get?]
  | cons entry rest ih =>
    obtain ⟨k, v⟩ := entry
    by_cases hk : key = k
    · simp [insert, hk, get?]
    · by_cases hlt : key < k
      · simp [insert, hk, hlt, get?]
      · simpa [insert, hk, hlt, get?] using ih

theorem get?_insert_of_ne (entries : Entries α) {key other : String} (value : α)
    (h : other ≠ key) : (entries.insert key value).get? other = entries.get? other := by
  induction entries with
  | nil => simp [insert, get?, h]
  | cons entry rest ih =>
    obtain ⟨k, v⟩ := entry
    by_cases hk : key = k
    · subst hk
      simp [insert, get?, h]
    · by_cases hlt : key < k
      · simp [insert, hk, hlt, get?, h]
      · by_cases ho : other = k
        · simp [insert, hk, hlt, get?, ho]
        · simpa [insert, hk, hlt, get?, ho] using ih

theorem get?_insert (entries : Entries α) (key other : String) (value : α) :
    (entries.insert key value).get? other =
      if other = key then some value else entries.get? other := by
  split
  · rename_i heq
    rw [heq, get?_insert_self]
  · rename_i hne
    exact get?_insert_of_ne entries value hne

theorem get?_eq_none_iff (entries : Entries α) (key : String) :
    entries.get? key = none ↔ ∀ entry ∈ entries, entry.1 ≠ key := by
  induction entries with
  | nil => simp [get?]
  | cons entry rest ih =>
    obtain ⟨k, v⟩ := entry
    by_cases hk : key = k
    · simp [get?, hk]
    · simp [get?, hk, ih, Ne.symm hk]

theorem lt_of_ne_of_not_lt {key other : String} (hne : key ≠ other) (hlt : ¬ key < other) :
    other < key := by
  rw [← String.not_le]
  intro hle
  exact hne (String.le_antisymm hle (String.not_lt.mp hlt))

theorem mem_insert {entries : Entries α} {key : String} {value : α} {entry : String × α}
    (h : entry ∈ entries.insert key value) : entry = (key, value) ∨ entry ∈ entries := by
  induction entries with
  | nil => simpa [insert] using h
  | cons head rest ih =>
    obtain ⟨k, v⟩ := head
    unfold insert at h
    split at h
    · rcases List.mem_cons.mp h with heq | hrest
      · exact .inl heq
      · exact .inr (List.mem_cons_of_mem _ hrest)
    · split at h
      · exact List.mem_cons.mp h
      · rcases List.mem_cons.mp h with heq | hrest
        · exact .inr (by simp [heq])
        · exact (ih hrest).imp_right (List.mem_cons_of_mem _)

theorem Sorted.insert {entries : Entries α} (h : Sorted entries) (key : String) (value : α) :
    Sorted (entries.insert key value) := by
  induction entries with
  | nil => simp [Sorted, Entries.insert]
  | cons head rest ih =>
    obtain ⟨k, v⟩ := head
    obtain ⟨hhead, htail⟩ := List.pairwise_cons.mp h
    unfold Entries.insert
    split
    · rename_i hk
      subst hk
      exact List.pairwise_cons.mpr ⟨hhead, htail⟩
    · rename_i hne
      split
      · rename_i hlt
        refine List.pairwise_cons.mpr ⟨?_, h⟩
        intro entry hentry
        rcases List.mem_cons.mp hentry with rfl | hrest
        · exact hlt
        · exact String.lt_trans hlt (hhead entry hrest)
      · rename_i hlt
        refine List.pairwise_cons.mpr ⟨?_, ih htail⟩
        intro entry hentry
        rcases mem_insert hentry with rfl | hrest
        · exact lt_of_ne_of_not_lt hne hlt
        · exact hhead entry hrest

theorem erase_sublist (entries : Entries α) (key : String) :
    (entries.erase key).Sublist entries := by
  induction entries with
  | nil => exact .slnil
  | cons head rest ih =>
    obtain ⟨k, v⟩ := head
    by_cases hk : key = k
    · simp [erase, hk]
    · simpa [erase, hk] using ih

theorem Sorted.erase {entries : Entries α} (h : Sorted entries) (key : String) :
    Sorted (entries.erase key) :=
  h.sublist (entries.erase_sublist key)

theorem get?_erase_of_ne (entries : Entries α) {key other : String} (h : other ≠ key) :
    (entries.erase key).get? other = entries.get? other := by
  induction entries with
  | nil => rfl
  | cons head rest ih =>
    obtain ⟨k, v⟩ := head
    by_cases hk : key = k
    · simp [erase, get?, hk, show other ≠ k from hk ▸ h]
    · simp [erase, get?, hk, ih]

/-- Erasing takes away what stood under the key and leaves what stands under another. -/
theorem Sorted.get?_erase {entries : Entries α} (h : Sorted entries) (key other : String) :
    (entries.erase key).get? other = if other = key then none else entries.get? other := by
  split
  · rename_i hkey
    subst hkey
    induction entries with
    | nil => rfl
    | cons head rest ih =>
      obtain ⟨k, v⟩ := head
      obtain ⟨hhead, htail⟩ := List.pairwise_cons.mp h
      by_cases hk : other = k
      · rw [Entries.erase, if_pos hk, get?_eq_none_iff]
        exact fun entry hentry => hk ▸ (String.ne_of_lt (hhead entry hentry)).symm
      · simpa [Entries.erase, get?, hk] using ih htail
  · rename_i hkey
    exact entries.get?_erase_of_ne hkey

end Entries

end RecordQuery
