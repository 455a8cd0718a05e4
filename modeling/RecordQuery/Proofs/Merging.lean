import RecordQuery.Proofs.Verdict

/-!
# Merging one entry

What merging an entry does depends on the key. A clause under a logical key is joined to the others
of the map, and a condition meets the one that its field has. Every other key but `AND` is left
alone. A logical entry that is merged always holds beside what the map asked for before.
-/

namespace RecordQuery.Where

open Sql Sql.Condition

theorem ne_conjunction_of_not_logical {key : String} (h : ¬ Logical key) : key ≠ conjunction :=
  fun heq => h (.inl heq)

@[simp] theorem mergeField_conjunction (target : Fields) (value : Json) :
    mergeField target conjunction value = conjoin target value := by
  simp [mergeField, enter]

theorem mergeField_of_get?_eq_none {target : Fields} {key : String} (hkey : key ≠ conjunction)
    (h : target.get? key = none) (value : Json) :
    mergeField target key value = target.insert key value := by
  simp [mergeField, enter, hkey, h]

/-- A second disjunction or negation becomes a clause of its own. -/
theorem mergeField_second {target : Fields} {key : String} (hkey : key ≠ conjunction)
    (hlogical : Logical key) {present : Json} (h : target.get? key = some present) (value : Json) :
    mergeField target key value = conjoin target (.obj [(key, value)]) := by
  have hsecond : key = disjunction ∨ key = negation := hlogical.resolve_left hkey
  simp [mergeField, enter, hkey, h, hsecond]

theorem mergeField_of_get?_eq_some {target : Fields} {key : String} (hkey : ¬ Logical key)
    {present : Json} (h : target.get? key = some present) (value : Json) :
    mergeField target key value = target.insert key (mergeCondition present value) := by
  simp only [Logical, not_or] at hkey
  simp [mergeField, enter, mergeCondition, h, hkey]

theorem mergeCondition_plain {present value : Json} (hpresent : present.isObj = false)
    (hvalue : value.isObj = false) : mergeCondition present value = value := by
  unfold mergeCondition
  cases value with
  | obj operators => simp [Json.isObj] at hvalue
  | _ => cases present <;> first | rfl | simp [Json.isObj] at hpresent

theorem mergeCondition_obj_plain (present : Fields) {value : Json} (h : value.isObj = false) :
    mergeCondition (.obj present) value = .obj (present.insert equality value) := by
  cases value with
  | obj operators => simp [Json.isObj] at h
  | _ => simp [mergeCondition, meet]

theorem mergeCondition_plain_obj {present : Json} (h : present.isObj = false) {operators : Fields}
    (habsent : operators.get? equality = none) :
    mergeCondition present (.obj operators) = .obj (operators.insert equality present) := by
  have hcontains : operators.contains equality = false := by simp [Entries.contains, habsent]
  cases present with
  | obj _ => simp [Json.isObj] at h
  | _ => simp [mergeCondition, meet, hcontains]

theorem mergeCondition_plain_obj_of_some {present : Json} (h : present.isObj = false)
    {operators : Fields} {value : Json} (hequal : operators.get? equality = some value) :
    mergeCondition present (.obj operators) = .obj operators := by
  have hcontains : operators.contains equality = true := by simp [Entries.contains, hequal]
  cases present with
  | obj _ => cases h
  | _ => simp [mergeCondition, meet, hcontains]

theorem sorted_conjoin {target : Fields} (h : target.Sorted) (clause : Json) :
    (conjoin target clause).Sorted :=
  h.insert _ _

/-- A merged entry joins a clause to the map or exchanges what stands under its own key. -/
theorem mergeField_cases (target : Fields) (key : String) (value : Json) :
    (∃ clause, mergeField target key value = conjoin target clause) ∨
      key ≠ conjunction ∧ ∃ entered, mergeField target key value = target.insert key entered := by
  by_cases hconj : key = conjunction
  · subst hconj
    exact .inl ⟨value, mergeField_conjunction target value⟩
  · cases hpresent : target.get? key with
    | none => exact .inr ⟨hconj, value, mergeField_of_get?_eq_none hconj hpresent value⟩
    | some present =>
      by_cases hlogical : Logical key
      · exact .inl ⟨_, mergeField_second hconj hlogical hpresent value⟩
      · exact .inr ⟨hconj, _, mergeField_of_get?_eq_some hlogical hpresent value⟩

theorem sorted_mergeField {target : Fields} (h : target.Sorted) (key : String) (value : Json) :
    (mergeField target key value).Sorted := by
  rcases mergeField_cases target key value with ⟨clause, heq⟩ | ⟨-, entered, heq⟩
  · rw [heq]
    exact sorted_conjoin h clause
  · rw [heq]
    exact h.insert key entered

theorem sorted_merge {target : Fields} (h : target.Sorted) (incoming : Fields) :
    (merge target incoming).Sorted := by
  induction incoming generalizing target with
  | nil => simpa using h
  | cons entry rest ih =>
    obtain ⟨key, value⟩ := entry
    simpa using ih (sorted_mergeField h key value)

theorem get?_conjoin_of_ne (target : Fields) (clause : Json) {other : String}
    (h : other ≠ conjunction) : (conjoin target clause).get? other = target.get? other :=
  Entries.get?_insert_of_ne target _ h

theorem get?_mergeField_of_ne (target : Fields) (value : Json) {key other : String}
    (hne : other ≠ key) (hother : other ≠ conjunction) :
    (mergeField target key value).get? other = target.get? other := by
  rcases mergeField_cases target key value with ⟨clause, heq⟩ | ⟨-, entered, heq⟩
  · rw [heq, get?_conjoin_of_ne target clause hother]
  · rw [heq, Entries.get?_insert_of_ne target entered hne]

theorem get?_mergeField_of_not_logical (target : Fields) {key : String} (hkey : ¬ Logical key)
    (value : Json) {other : String} (hne : other ≠ key) :
    (mergeField target key value).get? other = target.get? other := by
  cases hpresent : target.get? key with
  | none =>
    rw [mergeField_of_get?_eq_none (ne_conjunction_of_not_logical hkey) hpresent,
      Entries.get?_insert_of_ne target value hne]
  | some present =>
    rw [mergeField_of_get?_eq_some hkey hpresent, Entries.get?_insert_of_ne target _ hne]

/-- A key that no merged entry has keeps what stands there. -/
theorem get?_merge_of_forall_ne (target incoming : Fields) {other : String}
    (hne : ∀ entry ∈ incoming, entry.1 ≠ other) (hother : other ≠ conjunction) :
    (merge target incoming).get? other = target.get? other := by
  induction incoming generalizing target with
  | nil => simp
  | cons entry rest ih =>
    obtain ⟨key, value⟩ := entry
    obtain ⟨hkey, hrest⟩ := List.forall_mem_cons.mp hne
    rw [merge_cons, ih _ hrest, get?_mergeField_of_ne target value (Ne.symm hkey) hother]

/-- What a condition becomes where there may be one already. -/
def mergeInto (present : Option Json) (value : Json) : Json :=
  match present with
  | none => value
  | some present => mergeCondition present value

theorem get?_mergeField_self (target : Fields) {key : String} (hkey : ¬ Logical key)
    (value : Json) :
    (mergeField target key value).get? key = some (mergeInto (target.get? key) value) := by
  cases hpresent : target.get? key with
  | none =>
    rw [mergeField_of_get?_eq_none (ne_conjunction_of_not_logical hkey) hpresent,
      Entries.get?_insert_self, mergeInto]
  | some present =>
    rw [mergeField_of_get?_eq_some hkey hpresent, Entries.get?_insert_self, mergeInto]

/-- A condition that is merged meets what its field had before, and nothing else. -/
theorem get?_merge_of_get?_eq_some (target : Fields) {incoming : Fields}
    (hincoming : incoming.Sorted) {key : String} (hkey : ¬ Logical key) {value : Json}
    (h : incoming.get? key = some value) :
    (merge target incoming).get? key = some (mergeInto (target.get? key) value) := by
  induction incoming generalizing target with
  | nil => simp [Entries.get?] at h
  | cons entry rest ih =>
    obtain ⟨k, v⟩ := entry
    obtain ⟨hhead, htail⟩ := List.pairwise_cons.mp hincoming
    have hconj := ne_conjunction_of_not_logical hkey
    rw [merge_cons]
    by_cases hk : key = k
    · subst hk
      obtain rfl : v = value := by simpa [Entries.get?] using h
      have hrest : ∀ later ∈ rest, later.1 ≠ key := fun later hlater =>
        (String.ne_of_lt (hhead later hlater)).symm
      rw [get?_merge_of_forall_ne _ rest hrest hconj, get?_mergeField_self target hkey]
    · rw [ih _ htail (by simpa [Entries.get?, hk] using h), get?_mergeField_of_ne target v hk hconj]

theorem get?_merge_of_get?_eq_none (target : Fields) {incoming : Fields} {key : String}
    (hkey : key ≠ conjunction) (h : incoming.get? key = none) :
    (merge target incoming).get? key = target.get? key :=
  get?_merge_of_forall_ne target incoming ((Entries.get?_eq_none_iff incoming key).mp h) hkey

/-- Entries without clauses leave also the clauses alone that are there. -/
theorem get?_merge_of_absent (target : Fields) {incoming : Fields}
    (hkeys : ∀ entry ∈ incoming, ¬ Logical entry.1) {key : String}
    (habsent : incoming.get? key = none) : (merge target incoming).get? key = target.get? key := by
  have hne := (Entries.get?_eq_none_iff incoming key).mp habsent
  clear habsent
  induction incoming generalizing target with
  | nil => simp
  | cons entry rest ih =>
    obtain ⟨first, value⟩ := entry
    obtain ⟨hfirst, hrest⟩ := List.forall_mem_cons.mp hkeys
    obtain ⟨hneFirst, hneRest⟩ := List.forall_mem_cons.mp hne
    rw [merge_cons, ih _ hrest hneRest,
      get?_mergeField_of_not_logical target hfirst value (Ne.symm hneFirst)]

/-- What `AND` stands for after a merge is a list. -/
def ListsClauses (target : Fields) : Prop :=
  ∀ value, target.get? conjunction = some value → ∃ items, value = .arr items

theorem listsClauses_mergeField {target : Fields} (h : ListsClauses target) (key : String)
    (value : Json) : ListsClauses (mergeField target key value) := by
  intro present hpresent
  rcases mergeField_cases target key value with ⟨clause, heq⟩ | ⟨hkey, entered, heq⟩
  · rw [heq, conjoin, Entries.get?_insert_self] at hpresent
    exact ⟨_, (Option.some.inj hpresent).symm⟩
  · rw [heq, Entries.get?_insert_of_ne target entered (Ne.symm hkey)] at hpresent
    exact h present hpresent

theorem listsClauses_merge {target : Fields} (h : ListsClauses target) (incoming : Fields) :
    ListsClauses (merge target incoming) := by
  induction incoming generalizing target with
  | nil => simpa using h
  | cons entry rest ih =>
    obtain ⟨key, value⟩ := entry
    simpa using ih (listsClauses_mergeField h key value)

/-- Entries that come after all others are appended. -/
theorem merge_eq_append {target incoming : Fields} (hincoming : incoming.Sorted)
    (hlists : ListsClauses incoming)
    (hlt : ∀ entry ∈ incoming, ∀ present ∈ target, present.1 < entry.1) :
    merge target incoming = target ++ incoming := by
  induction incoming generalizing target with
  | nil => simp
  | cons entry rest ih =>
    obtain ⟨key, value⟩ := entry
    obtain ⟨hhead, htail⟩ := List.pairwise_cons.mp hincoming
    obtain ⟨hkey, hrest⟩ := List.forall_mem_cons.mp hlt
    have habsent : target.get? key = none := (Entries.get?_eq_none_iff target key).mpr
      fun present hpresent => String.ne_of_lt (hkey present hpresent)
    have hentered : mergeField target key value = target ++ [(key, value)] := by
      rw [← Entries.insert_of_forall_lt hkey]
      by_cases hconj : key = conjunction
      · subst hconj
        obtain ⟨items, rfl⟩ := hlists value (by simp [Entries.get?])
        simp [conjoin, habsent, Json.toList]
      · exact mergeField_of_get?_eq_none hconj habsent value
    rw [merge_cons, hentered, ih htail]
    · simp
    · intro present hpresent
      have hne : conjunction ≠ key :=
        (String.ne_of_lt (hhead _ (Entries.mem_of_get? hpresent))).symm
      exact hlists present (by simpa [Entries.get?, hne] using hpresent)
    · intro later hlater present hpresent
      rcases List.mem_append.mp hpresent with hold | hnew
      · exact hrest later hlater present hold
      · obtain rfl := List.mem_singleton.mp hnew
        exact hhead later hlater

variable {db : Database} (row : db.Row)

theorem verdict_insert {target : Fields} (h : target.Sorted) (key : String) (value : Json) :
    verdict row (ofWhere (target.insert key value)) =
      Verdict.and (verdict row (ofEntry key value))
        (verdict row (ofWhere (target.erase key))) := by
  rw [verdict_ofWhere_perm row (h.insert_perm_erase key value), verdict_ofWhere_cons]

theorem verdict_insert_of_get?_eq_none {target : Fields} {key : String}
    (h : target.get? key = none) (value : Json) :
    verdict row (ofWhere (target.insert key value)) =
      Verdict.and (verdict row (ofEntry key value)) (verdict row (ofWhere target)) := by
  rw [verdict_ofWhere_perm row (Entries.insert_perm_cons h value), verdict_ofWhere_cons]

theorem verdict_of_get?_eq_some {target : Fields} {key : String} {value : Json}
    (h : target.get? key = some value) :
    verdict row (ofWhere target) =
      Verdict.and (verdict row (ofEntry key value))
        (verdict row (ofWhere (target.erase key))) := by
  rw [verdict_ofWhere_perm row (Entries.perm_cons_erase h), verdict_ofWhere_cons]

/-- Joined clauses hold beside the map they are joined to. -/
theorem verdict_conjoin {target : Fields} (h : target.Sorted) (clause : Json) :
    verdict row (ofWhere (conjoin target clause)) =
      Verdict.and (verdict row (ofEntry conjunction clause)) (verdict row (ofWhere target)) := by
  rw [conjoin, verdict_insert row h, verdict_conjunction, verdict_conjunction]
  cases hpresent : target.get? conjunction with
  | none => simp [Json.toList, Entries.erase_of_get?_eq_none hpresent]
  | some present =>
    rw [verdict_of_get?_eq_some row hpresent, verdict_conjunction]
    simp only [Json.toList, List.map_append, Verdict.all_append]
    rw [Verdict.and_assoc, Verdict.and_left_comm]

/-- A map of one logical entry says what the entry says. -/
theorem verdict_conjunction_singleton (key : String) (value : Json) :
    verdict row (ofEntry conjunction (.obj [(key, value)])) =
      verdict row (ofEntry key value) := by
  simp [verdict_conjunction, Json.toList, clauseVerdict, verdict_ofWhere]

/-- A logical entry that is merged holds beside the map, wherever it ends up. -/
theorem verdict_mergeField_logical {target : Fields} (h : target.Sorted) {key : String}
    (hkey : Logical key) (value : Json) :
    verdict row (ofWhere (mergeField target key value)) =
      Verdict.and (verdict row (ofEntry key value)) (verdict row (ofWhere target)) := by
  by_cases hconj : key = conjunction
  · subst hconj
    rw [mergeField_conjunction, verdict_conjoin row h]
  · cases hpresent : target.get? key with
    | none =>
      rw [mergeField_of_get?_eq_none hconj hpresent, verdict_insert_of_get?_eq_none row hpresent]
    | some present =>
      rw [mergeField_second hconj hkey hpresent, verdict_conjoin row h,
        verdict_conjunction_singleton]

/-- A condition that meets another holds beside it if that is so for the field alone. -/
theorem verdict_mergeField_field {target : Fields} (h : target.Sorted) {key : String}
    (hkey : ¬ Logical key) {present : Json} (hpresent : target.get? key = some present)
    {value : Json}
    (hmeet : verdict row (ofField key (mergeCondition present value)) =
      Verdict.and (verdict row (ofField key value)) (verdict row (ofField key present))) :
    verdict row (ofWhere (mergeField target key value)) =
      Verdict.and (verdict row (ofEntry key value)) (verdict row (ofWhere target)) := by
  rw [mergeField_of_get?_eq_some hkey hpresent, verdict_insert row h,
    verdict_of_get?_eq_some row hpresent]
  simp only [ofEntry_of_not_logical hkey]
  rw [hmeet, Verdict.and_assoc]

end RecordQuery.Where
