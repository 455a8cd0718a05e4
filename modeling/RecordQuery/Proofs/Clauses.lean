import Mathlib.Algebra.Order.Group.Multiset
import RecordQuery.Proofs.Merging

/-!
# The clauses of a map

The clauses of a where map are those that its `AND` lists, and its `OR` and its `NOT`, each as a map
of its own. Merging moves clauses from one of these keys to another, but the map has as many of each
as before and as the merged entries bring in. Under any other key only an entry for that key makes a
difference.
-/

namespace RecordQuery.Where

/-- The clauses of a map. What stands under `AND` is one clause if it is no list. -/
def clauses (fields : Fields) : Multiset Json :=
  (fields.get? conjunction).elim 0 (fun value => ↑value.toList) +
    (fields.get? disjunction).elim 0 (fun value => {.obj [(disjunction, value)]}) +
    (fields.get? negation).elim 0 (fun value => {.obj [(negation, value)]})

theorem clauses_conjunction (value : Json) : clauses [(conjunction, value)] = ↑value.toList := by
  have hor : disjunction ≠ conjunction := by decide
  have hnot : negation ≠ conjunction := by decide
  simp [clauses, Entries.get?, hor, hnot]

theorem clauses_second {key : String} (hkey : key = disjunction ∨ key = negation) (value : Json) :
    clauses [(key, value)] = {.obj [(key, value)]} := by
  rcases hkey with rfl | rfl <;> rfl

/-- Clauses that are joined to a map come in beside its own. -/
theorem clauses_conjoin (target : Fields) (clause : Json) :
    clauses (conjoin target clause) = clauses target + ↑clause.toList := by
  have hand : ((conjoin target clause).get? conjunction).elim (0 : Multiset Json)
        (fun value => ↑value.toList) =
      (target.get? conjunction).elim 0 (fun value => ↑value.toList) + ↑clause.toList := by
    rw [conjoin, Entries.get?_insert_self]
    cases target.get? conjunction with
    | none => exact (zero_add _).symm
    | some present => exact (Multiset.coe_add _ _).symm
  rw [clauses, hand, get?_conjoin_of_ne target clause (by decide),
    get?_conjoin_of_ne target clause (by decide), clauses,
    add_right_comm _ (clause.toList : Multiset Json),
    add_right_comm _ (clause.toList : Multiset Json)]

/-- A first `OR` or `NOT` is one clause more. -/
theorem clauses_insert_of_absent {target : Fields} {key : String}
    (hkey : key = disjunction ∨ key = negation) (h : target.get? key = none) (value : Json) :
    clauses (target.insert key value) = clauses target + {.obj [(key, value)]} := by
  rcases hkey with rfl | rfl
  · rw [clauses, Entries.get?_insert_of_ne target value (by decide), Entries.get?_insert_self,
      Entries.get?_insert_of_ne target value (by decide), clauses, h]
    simp only [Option.elim_some, Option.elim_none, add_zero]
    rw [add_right_comm]
  · rw [clauses, Entries.get?_insert_of_ne target value (by decide),
      Entries.get?_insert_of_ne target value (by decide), Entries.get?_insert_self, clauses, h]
    simp only [Option.elim_some, Option.elim_none, add_zero]

theorem clauses_insert_of_not_logical (target : Fields) {key : String} (hkey : ¬ Logical key)
    (value : Json) : clauses (target.insert key value) = clauses target := by
  simp only [Logical, not_or] at hkey
  obtain ⟨hand, hor, hnot⟩ := hkey
  rw [clauses, Entries.get?_insert_of_ne target value (Ne.symm hand),
    Entries.get?_insert_of_ne target value (Ne.symm hor),
    Entries.get?_insert_of_ne target value (Ne.symm hnot), clauses]

/-- A merged entry brings in its own clauses and leaves those of the map. -/
theorem clauses_mergeField (target : Fields) (key : String) (value : Json) :
    clauses (mergeField target key value) = clauses target + clauses [(key, value)] := by
  by_cases hkey : Logical key
  · rcases hkey with rfl | hkey
    · rw [mergeField_conjunction, clauses_conjoin, clauses_conjunction]
    · have hconj : key ≠ conjunction := by rcases hkey with rfl | rfl <;> decide
      rw [clauses_second hkey]
      cases hpresent : target.get? key with
      | none =>
        rw [mergeField_of_get?_eq_none hconj hpresent, clauses_insert_of_absent hkey hpresent]
      | some present =>
        rw [mergeField_second hconj (.inr hkey) hpresent, clauses_conjoin]
        rfl
  · have halone : clauses [(key, value)] = 0 := clauses_insert_of_not_logical [] hkey value
    rw [halone, add_zero]
    cases hpresent : target.get? key with
    | none =>
      rw [mergeField_of_get?_eq_none (ne_conjunction_of_not_logical hkey) hpresent,
        clauses_insert_of_not_logical target hkey]
    | some present =>
      rw [mergeField_of_get?_eq_some hkey hpresent, clauses_insert_of_not_logical target hkey]

/-- One merge into a map, of an entry or of the entries of another map. -/
inductive Addition where
  | entry (key : String) (value : Json)
  | map (entries : Fields)

namespace Addition

def addTo (target : Fields) : Addition → Fields
  | entry key value => mergeField target key value
  | map entries => merge target entries

def entries : Addition → List (String × Json)
  | entry key value => [(key, value)]
  | map entries => entries

end Addition

/-- The map that is left when one merge follows the other. -/
def addAll (target : Fields) (additions : List Addition) : Fields :=
  additions.foldl Addition.addTo target

/-- A sequence of merges is one merge of all their entries. -/
theorem addAll_eq_merge (target : Fields) (additions : List Addition) :
    addAll target additions = merge target (additions.flatMap Addition.entries) := by
  simp only [merge_eq_foldl, addAll]
  induction additions generalizing target with
  | nil => rfl
  | cons addition rest ih =>
    rw [List.foldl_cons, ih, List.flatMap_cons, List.foldl_append]
    cases addition with
    | entry key value => rfl
    | map entries => rw [Addition.addTo, merge_eq_foldl, Addition.entries]

/-- The induction is on the merged entries, each of which meets what those before it have left. -/
theorem clauses_merge (target incoming : Fields) :
    clauses (merge target incoming) =
      clauses target + (incoming.map fun entry => clauses [entry]).sum := by
  induction incoming generalizing target with
  | nil => rw [merge_nil, List.map_nil, List.sum_nil, add_zero]
  | cons entry rest ih =>
    obtain ⟨key, value⟩ := entry
    rw [merge_cons, ih, clauses_mergeField, List.map_cons, List.sum_cons, add_assoc]

/-- However many merges follow each other, the map has in the end the clauses that it had and those
of each merged entry, as often as they are there, and what stands under a key other than `AND` for
which no entry was merged is what stood there before. -/
theorem merging_keeps_clauses (target : Fields) (additions : List Addition) :
    clauses (addAll target additions) = clauses target +
        ((additions.flatMap Addition.entries).map fun entry => clauses [entry]).sum ∧
      ∀ key, key ≠ conjunction →
        (∀ entry ∈ additions.flatMap Addition.entries, entry.1 ≠ key) →
        (addAll target additions).get? key = target.get? key := by
  rw [addAll_eq_merge]
  refine ⟨clauses_merge target _, ?_⟩
  intro key hkey hunnamed
  exact get?_merge_of_forall_ne target _ hunnamed hkey

/-- A second `OR`, a second `NOT` and one clause under `AND` all end up in the list there. -/
theorem merging_keeps_clauses_of_second_denial :
    let target : Fields := [("AND", .obj [("rank", .null)]), ("NOT", .arr []), ("age", .bool true)]
    let additions : List Addition := [.entry "OR" (.arr [.null]),
      .map [("AND", .arr [.null, .str "x"]), ("NOT", .arr []), ("OR", .str "x"), ("rank", .null)]]
    clauses (addAll target additions) = ↑[Json.obj [("rank", .null)], .null, .str "x",
        .obj [("NOT", .arr [])], .obj [("NOT", .arr [])], .obj [("OR", .arr [.null])],
        .obj [("OR", .str "x")]] ∧
      (addAll target additions).get? "age" = some (.bool true) := by
  intro target additions
  obtain ⟨hclauses, hkept⟩ := merging_keeps_clauses target additions
  exact ⟨hclauses.trans (by decide), (hkept "age" (by decide) (by decide)).trans rfl⟩

end RecordQuery.Where
