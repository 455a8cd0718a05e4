import Mathlib.Data.List.TakeDrop
import Mathlib.Data.List.TakeWhile
import RecordQuery.Proofs.Compiled

/-!
# Where maps as filters

A where map can be given as filters again. It is settled when the parser leaves it as it is: its
entries are in order, `AND` has a list, and a key that could be split has an object. Merging keeps a
map settled as long as what comes in would not be split either. So whatever the parser gives is
settled, and so is the condition of a shorthand.
-/

namespace RecordQuery

open Where

namespace Filter

/-- The parser takes the entry as it stands. -/
def Stands (key : String) (value : Json) : Prop :=
  split? key = none ∨ value.isObj = true

/-- The parser takes the whole map as it stands. -/
structure Settled (target : Fields) : Prop where
  sorted : target.Sorted
  lists : ListsClauses target
  stands : ∀ key value, target.get? key = some value → Stands key value

theorem split?_eq (key : String) :
    split? key = match key.toList.dropWhile (· ≠ ':') with
      | _ :: suffix => some (String.ofList (key.toList.takeWhile (· ≠ ':')), String.ofList suffix)
      | [] => none := by
  unfold split?
  rw [List.span_eq_takeWhile_dropWhile]
  cases key.toList.dropWhile (· ≠ ':') <;> rfl

theorem split?_eq_none_iff (key : String) : split? key = none ↔ ':' ∉ key.toList := by
  have hdrop : key.toList.dropWhile (· ≠ ':') = [] ↔ ':' ∉ key.toList := by
    rw [List.dropWhile_eq_nil_iff]
    constructor
    · intro h hmem
      simpa using h ':' hmem
    · intro h c hc
      simpa using fun heq : c = ':' => h (heq ▸ hc)
  rw [← hdrop, split?_eq]
  cases key.toList.dropWhile (· ≠ ':') <;> simp

/-- The field before the first colon has none. -/
theorem split?_of_split? {key field suffix : String} (h : split? key = some (field, suffix)) :
    split? field = none := by
  rw [split?_eq] at h
  split at h
  · obtain ⟨rfl, -⟩ := Prod.mk.inj (Option.some.inj h)
    rw [split?_eq_none_iff, String.toList_ofList]
    intro hmem
    simpa using List.mem_takeWhile_imp hmem
  · cases h

theorem split?_of_logical {key : String} (h : Logical key) : split? key = none := by
  rcases h with rfl | rfl | rfl <;> decide +kernel

theorem Stands.entry_eq {key : String} {value : Json} (h : Stands key value) :
    entry key value = (key, value) := by
  unfold entry
  cases hsplit : split? key with
  | none => rfl
  | some parts =>
    have hvalue : value.isObj = true := h.resolve_left (by simp [hsplit])
    simp [hvalue]

/-- What the parser makes of an entry it would not split again. -/
theorem stands_entry (key : String) (value : Json) :
    Stands (entry key value).1 (entry key value).2 := by
  unfold entry
  cases hsplit : split? key with
  | none => exact .inl hsplit
  | some parts =>
    obtain ⟨field, suffix⟩ := parts
    have hfield := split?_of_split? hsplit
    cases hvalue : value.isObj with
    | true => exact .inr (by simp [hvalue])
    | false =>
      cases hsuffix : Operator.ofSuffix? suffix with
      | none => exact .inl (by simpa [hsuffix] using hfield)
      | some operator => exact .inl (by simpa [hsuffix] using hfield)

theorem settled_nil : Settled [] where
  sorted := .nil
  lists value h := by simp [Entries.get?] at h
  stands key value h := by simp [Entries.get?] at h

end Filter

namespace Where

theorem isObj_mergeInto (present : Option Json) {value : Json} (h : value.isObj = true) :
    (mergeInto present value).isObj = true := by
  cases value with
  | obj operators =>
    cases present with
    | none => rfl
    | some present => cases present <;> rfl
  | _ => cases h

end Where

namespace Filter

theorem Settled.mergeField {target : Fields} (h : Settled target) {key : String} {value : Json}
    (hentry : Stands key value) : Settled (mergeField target key value) where
  sorted := sorted_mergeField h.sorted key value
  lists := listsClauses_mergeField h.lists key value
  stands := by
    intro other present hpresent
    cases hsplit : split? other with
    | none => exact .inl hsplit
    | some parts =>
      have hlogical : ¬ Logical other := fun hlogical => by
        rw [split?_of_logical hlogical] at hsplit
        cases hsplit
      by_cases hkey : other = key
      · subst hkey
        have hvalue : value.isObj = true := hentry.resolve_left (by simp [hsplit])
        rw [get?_mergeField_self target hlogical] at hpresent
        obtain rfl := Option.some.inj hpresent
        exact .inr (isObj_mergeInto _ hvalue)
      · rw [get?_mergeField_of_ne target value hkey (ne_conjunction_of_not_logical hlogical)]
          at hpresent
        exact h.stands other present hpresent

theorem Settled.merge {target : Fields} (h : Settled target) {incoming : Fields}
    (hincoming : ∀ entry ∈ incoming, Stands entry.1 entry.2) : Settled (merge target incoming) := by
  induction incoming generalizing target with
  | nil => simpa using h
  | cons entry rest ih =>
    obtain ⟨hentry, hrest⟩ := List.forall_mem_cons.mp hincoming
    rw [merge_cons]
    exact ih (h.mergeField hentry) hrest

theorem settled_parse (filters : Fields) : Settled (parse filters) := by
  refine settled_nil.merge ?_
  rw [List.forall_mem_map]
  exact fun filter _ => stands_entry filter.1 filter.2

theorem Settled.parse_eq {filters : Fields} (h : Settled filters) : parse filters = filters := by
  have hentries : filters.map (fun filter => entry filter.1 filter.2) = filters := by
    refine (List.map_congr_left fun filter hfilter => ?_).trans (List.map_id filters)
    exact (h.stands filter.1 filter.2 (h.sorted.get?_of_mem hfilter)).entry_eq
  calc parse filters = Where.merge [] filters := by rw [parse, hentries]
    _ = filters := merge_eq_append h.sorted h.lists (by simp)

/-- The settled maps are the fixed points of the parser. -/
theorem parse_eq_self_iff (filters : Fields) : parse filters = filters ↔ Settled filters :=
  ⟨fun h => h ▸ settled_parse filters, Settled.parse_eq⟩

end Filter

namespace Shorthand

open RecordQuery.Filter

/-- Under a marker that has no colon, the marker and the search leave the parsed filters settled. -/
theorem settled_condition {marker : Option String}
    (hmarker : ∀ field ∈ marker, ':' ∉ field.toList) (shorthand : Shorthand) :
    Settled (shorthand.condition marker) := by
  have hfiltered := settled_parse (shorthand.filters.getD [])
  have hlive : ∀ field ∈ marker,
      Settled (mergeField (parse (shorthand.filters.getD [])) field .null) := fun field hfield =>
    hfiltered.mergeField (.inl ((split?_eq_none_iff field).mpr (hmarker field hfield)))
  have hsearch (clauses : Json) : Stands disjunction clauses :=
    .inl (split?_of_logical (.inr (.inl rfl)))
  simp only [condition, merge_parse]
  split
  · refine Settled.mergeField ?_ (hsearch _)
    split
    · exact hlive _ rfl
    · exact hfiltered
  · split
    · exact hlive _ rfl
    · exact hfiltered

/-- Settled filters alone are their own condition. -/
theorem condition_of_settled {target : Fields} (h : Settled target) (marker : Option String) :
    condition marker { filters := some target } = target := by
  have hparse : Where.merge [] (parse target) = target := by rw [merge_parse, h.parse_eq]
  simpa [condition] using hparse

/-- The parser leaves what it has parsed as it is. Given as the only filters of another shorthand,
the condition of a shorthand is the condition of that one too. -/
theorem condition_recompiles :
    (∀ filters : Fields, parse (parse filters) = parse filters) ∧
    ∀ (marker : Option String) (shorthand : Shorthand) (target : Fields),
      (∀ field ∈ marker, ':' ∉ field.toList) →
      (shorthand.compile marker).condition = some target →
      (Shorthand.compile marker { filters := some target }).condition = some target := by
  refine ⟨fun filters => (settled_parse filters).parse_eq, ?_⟩
  intro marker shorthand target hmarker htarget
  obtain ⟨hfull, rfl⟩ : (shorthand.condition marker).isEmpty = false ∧
      shorthand.condition marker = target := by
    simpa [compile] using htarget
  have hagain := condition_of_settled (settled_condition hmarker shorthand) marker
  simp only [compile, hagain, hfull]
  rfl

/-- A search beside an `OR`, a single clause under `AND`, a field without a name, a key with an object
and a key with two colons. -/
theorem condition_recompiles_beside_clauses :
    let filters : Fields := [(":eq", .num (.int 1)), ("AND", .obj [("rank", .num (.int 2))]),
      ("OR:in", .str "Oslo"), ("deletedAt:not", .null), ("meta:key:gte", .num (.int 3)),
      ("posts:some", .obj [("title:starts", .str "B")])]
    let shorthand : Shorthand :=
      { filters := some filters, search := some ⟨"bob", ["name:in"]⟩, softDelete := true }
    let target := shorthand.condition (some defaultMarker)
    Filter.parse (parse filters) = parse filters ∧ ':' ∉ defaultMarker.toList ∧
      (shorthand.compile (some defaultMarker)).condition = some target ∧
      (Shorthand.compile (some defaultMarker) { filters := some target }).condition =
        some target := by
  intro filters shorthand target
  obtain ⟨hparse, hcompile⟩ := condition_recompiles
  have hmarker : ':' ∉ defaultMarker.toList := by decide
  have htarget : (shorthand.compile (some defaultMarker)).condition = some target := rfl
  refine ⟨hparse filters, hmarker, htarget, ?_⟩
  exact hcompile (some defaultMarker) shorthand target (by simpa using hmarker) htarget

end Shorthand

end RecordQuery
