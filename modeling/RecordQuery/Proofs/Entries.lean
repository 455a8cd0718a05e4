import RecordQuery.Entries

/-!
# Entries in key order

Among entries in key order a key is found exactly where it stands, and inserting exchanges what
stands under the key and nothing else.
-/

namespace RecordQuery.Entries

variable {α : Type}

theorem isSome_get?_iff (entries : Entries α) (key : String) :
    (entries.get? key).isSome ↔ key ∈ entries.map (·.1) := by
  rw [Option.isSome_iff_ne_none, Ne, get?_eq_none_iff, List.mem_map]
  simp

theorem get?_map {β : Type} (f : α → β) (entries : Entries α) (key : String) :
    Entries.get? (entries.map fun entry => (entry.1, f entry.2)) key =
      (entries.get? key).map f := by
  induction entries with
  | nil => rfl
  | cons entry rest ih =>
    obtain ⟨k, value⟩ := entry
    by_cases hk : key = k
    · simp [get?, hk]
    · simpa [get?, hk] using ih

theorem mem_of_get? {entries : Entries α} {key : String} {value : α}
    (h : entries.get? key = some value) : (key, value) ∈ entries := by
  induction entries with
  | nil => simp [get?] at h
  | cons entry rest ih =>
    obtain ⟨k, v⟩ := entry
    by_cases hk : key = k
    · obtain rfl : v = value := by simpa [get?, hk] using h
      simp [hk]
    · exact List.mem_cons_of_mem _ (ih (by simpa [get?, hk] using h))

theorem Sorted.get?_of_mem {entries : Entries α} (h : Sorted entries) {key : String} {value : α}
    (hmem : (key, value) ∈ entries) : entries.get? key = some value := by
  induction entries with
  | nil => simp at hmem
  | cons entry rest ih =>
    obtain ⟨k, v⟩ := entry
    obtain ⟨hhead, htail⟩ := List.pairwise_cons.mp h
    rcases List.mem_cons.mp hmem with heq | hrest
    · cases heq
      simp [get?]
    · have hne : key ≠ k := (String.ne_of_lt (hhead _ hrest)).symm
      simpa [get?, hne] using ih htail hrest

theorem Sorted.nodup {entries : Entries α} (h : Sorted entries) : entries.Nodup :=
  h.imp fun hlt heq => by
    rw [heq] at hlt
    exact String.lt_irrefl _ hlt

/-- Entries in order are told by what stands under each key. -/
theorem Sorted.ext {entries more : Entries α} (h : Sorted entries) (hmore : Sorted more)
    (hget : ∀ key, entries.get? key = more.get? key) : entries = more := by
  have hperm : entries.Perm more := by
    refine (List.perm_ext_iff_of_nodup h.nodup hmore.nodup).mpr fun entry => ?_
    constructor
    · intro hmem
      exact mem_of_get? (hget entry.1 ▸ h.get?_of_mem hmem)
    · intro hmem
      exact mem_of_get? ((hget entry.1).symm ▸ hmore.get?_of_mem hmem)
  refine hperm.eq_of_pairwise ?_ h hmore
  intro entry other _ _ hlt hgt
  exact absurd hgt (String.lt_asymm hlt)

/-- Values under different keys come in in either order. -/
theorem Sorted.insert_comm {entries : Entries α} (h : Sorted entries) {key other : String}
    (hne : key ≠ other) (value more : α) :
    (entries.insert key value).insert other more =
      (entries.insert other more).insert key value := by
  refine ((h.insert _ _).insert _ _).ext ((h.insert _ _).insert _ _) fun asked => ?_
  simp only [get?_insert]
  by_cases hkey : asked = key
  · simp [hkey, hne]
  · simp [hkey]

/-- A key after all others goes to the end. -/
theorem insert_of_forall_lt {entries : Entries α} {key : String}
    (h : ∀ entry ∈ entries, entry.1 < key) (value : α) :
    entries.insert key value = entries ++ [(key, value)] := by
  induction entries with
  | nil => rfl
  | cons head rest ih =>
    obtain ⟨k, v⟩ := head
    obtain ⟨hk, hrest⟩ := List.forall_mem_cons.mp h
    have hne : key ≠ k := (String.ne_of_lt hk).symm
    simp [insert, hne, String.lt_asymm hk, ih hrest]

/-- A key that is not there yet is added to the entries. -/
theorem insert_perm_cons {entries : Entries α} {key : String} (h : entries.get? key = none)
    (value : α) : (entries.insert key value).Perm ((key, value) :: entries) := by
  induction entries with
  | nil => simp [insert]
  | cons head rest ih =>
    obtain ⟨k, v⟩ := head
    have hne : key ≠ k := by
      rintro rfl
      simp [get?] at h
    have hrest : get? rest key = none := by simpa [get?, hne] using h
    by_cases hlt : key < k
    · simp [insert, hne, hlt]
    · simpa [insert, hne, hlt] using ((ih hrest).cons (k, v)).trans (.swap _ _ _)

theorem erase_of_get?_eq_none {entries : Entries α} {key : String}
    (h : entries.get? key = none) : entries.erase key = entries := by
  induction entries with
  | nil => rfl
  | cons head rest ih =>
    obtain ⟨k, v⟩ := head
    have hne : key ≠ k := by
      rintro rfl
      simp [get?] at h
    simp [erase, hne, ih (by simpa [get?, hne] using h)]

/-- The entry found under a key beside the others. -/
theorem perm_cons_erase {entries : Entries α} {key : String} {value : α}
    (h : entries.get? key = some value) : entries.Perm ((key, value) :: entries.erase key) := by
  induction entries with
  | nil => simp [get?] at h
  | cons head rest ih =>
    obtain ⟨k, v⟩ := head
    by_cases hk : key = k
    · obtain rfl : v = value := by simpa [get?, hk] using h
      simp [erase, hk]
    · have hrest : get? rest key = some value := by simpa [get?, hk] using h
      simpa [erase, hk] using ((ih hrest).cons (k, v)).trans (.swap _ _ _)

/-- Inserting puts the value in the place of what stood under the key. -/
theorem Sorted.insert_perm_erase {entries : Entries α} (h : Sorted entries) (key : String)
    (value : α) : (entries.insert key value).Perm ((key, value) :: entries.erase key) := by
  induction entries with
  | nil => simp [Entries.insert, Entries.erase]
  | cons head rest ih =>
    obtain ⟨k, v⟩ := head
    obtain ⟨hhead, htail⟩ := List.pairwise_cons.mp h
    by_cases hk : key = k
    · simp [Entries.insert, Entries.erase, hk]
    · by_cases hlt : key < k
      · have habsent : Entries.erase rest key = rest := erase_of_get?_eq_none <|
          (get?_eq_none_iff rest key).mpr fun entry hentry =>
            (String.ne_of_lt (String.lt_trans hlt (hhead entry hentry))).symm
        simp [Entries.insert, Entries.erase, hk, hlt, habsent]
      · simpa [Entries.insert, Entries.erase, hk, hlt] using ((ih htail).cons (k, v)).trans (.swap _ _ _)

theorem Sorted.filter {entries : Entries α} (h : Sorted entries) (keep : String × α → Bool) :
    Sorted (entries.filter keep) :=
  List.Pairwise.filter keep h

/-- What stands under a key is left out of a part of the entries or stands there too. -/
theorem Sorted.get?_filter {entries : Entries α} (h : Sorted entries) (keep : String × α → Bool)
    (key : String) :
    Entries.get? (entries.filter keep) key = (entries.get? key).filter fun value =>
      keep (key, value) := by
  induction entries with
  | nil => rfl
  | cons entry rest ih =>
    obtain ⟨k, v⟩ := entry
    obtain ⟨hhead, htail⟩ := List.pairwise_cons.mp h
    by_cases hk : key = k
    · subst hk
      have habsent : get? rest key = none := (get?_eq_none_iff rest key).mpr fun later hlater =>
        (String.ne_of_lt (hhead later hlater)).symm
      cases hkeep : keep (key, v) with
      | true => simp [hkeep, get?, Option.filter]
      | false => simp [hkeep, get?, ih htail, habsent, Option.filter]
    · cases hkeep : keep (k, v) with
      | true => simpa [hkeep, get?, hk] using ih htail
      | false => simpa [hkeep, get?, hk] using ih htail

theorem Sorted.insertAll {entries : Entries α} (h : Sorted entries) (more : Entries α) :
    Sorted (entries.insertAll more) := by
  unfold Entries.insertAll
  induction more generalizing entries with
  | nil => exact h
  | cons entry rest ih => exact ih (h.insert entry.1 entry.2)

theorem insertAll_append (entries more last : Entries α) :
    entries.insertAll (more ++ last) = (entries.insertAll more).insertAll last :=
  List.foldl_append

/-- Entries that are in order after those before them are appended. -/
theorem insertAll_eq_append {entries more : Entries α} (h : Sorted (entries ++ more)) :
    entries.insertAll more = entries ++ more := by
  induction more generalizing entries with
  | nil => simp [insertAll]
  | cons entry rest ih =>
    have hlt : ∀ before ∈ entries, before.1 < entry.1 := fun before hbefore =>
      (List.pairwise_append.mp h).2.2 before hbefore entry List.mem_cons_self
    have hentered : entries.insert entry.1 entry.2 = entries ++ [entry] :=
      insert_of_forall_lt hlt entry.2
    have hsorted : Sorted (entries ++ [entry] ++ rest) := by simpa using h
    have hrest := ih hsorted
    rw [List.append_assoc] at hrest
    rw [← hentered] at hrest
    exact hrest

theorem Sorted.ofList_eq {entries : Entries α} (h : Sorted entries) : ofList entries = entries :=
  insertAll_eq_append h

/-- Of entries under different keys each is found after they have been inserted. -/
theorem get?_insertAll (entries : Entries α) {more : Entries α} (h : (more.map (·.1)).Nodup)
    (key : String) :
    (entries.insertAll more).get? key = (more.get? key).or (entries.get? key) := by
  induction more generalizing entries with
  | nil => rfl
  | cons entry rest ih =>
    obtain ⟨k, v⟩ := entry
    obtain ⟨hhead, htail⟩ := List.nodup_cons.mp h
    have hrest := ih (entries.insert k v) htail
    change (entries.insertAll ((k, v) :: rest)).get? key = _ at hrest
    by_cases hk : key = k
    · subst hk
      have habsent : get? rest key = none := (get?_eq_none_iff rest key).mpr fun later hlater heq =>
        hhead (List.mem_map.mpr ⟨later, hlater, heq⟩)
      rw [habsent, get?_insert_self] at hrest
      simpa [get?] using hrest
    · rw [get?_insert_of_ne entries v hk] at hrest
      simpa [get?, hk] using hrest

theorem get?_append (entries more : Entries α) (key : String) :
    Entries.get? (entries ++ more) key = (entries.get? key).or (more.get? key) := by
  induction entries with
  | nil => rfl
  | cons entry rest ih =>
    obtain ⟨k, value⟩ := entry
    by_cases hk : key = k
    · simp [get?, hk]
    · simpa [get?, hk] using ih

/-- Of entries that are inserted in turn the last one for a key is found. -/
theorem get?_insertAll_reverse (entries more : Entries α) (key : String) :
    (entries.insertAll more).get? key =
      (Entries.get? more.reverse key).or (entries.get? key) := by
  induction more generalizing entries with
  | nil => rfl
  | cons entry rest ih =>
    obtain ⟨k, value⟩ := entry
    have hrest : (entries.insertAll ((k, value) :: rest)).get? key = _ :=
      ih (entries.insert k value)
    rw [hrest, List.reverse_cons, get?_append, get?_insert, Option.or_assoc]
    by_cases hk : key = k <;> simp [get?, hk]

theorem Sorted.nodup_keys {entries : Entries α} (h : Sorted entries) :
    (entries.map (·.1)).Nodup :=
  List.pairwise_map.mpr (h.imp String.ne_of_lt)

end RecordQuery.Entries
