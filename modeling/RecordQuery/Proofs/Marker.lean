import RecordQuery.Proofs.Merging
import RecordQuery.Proofs.Runs

/-!
# Rows marked as deleted

The null that a soft-delete flag merges under the marker stays in sight: whatever the filters put
there before becomes null or gets null under `equals`, and nothing merged later has that key. So no
row that carries a mark meets the condition, and the mark is what a soft delete writes.
-/

namespace RecordQuery

namespace Where

open Sql Sql.Condition

/-- A condition that demands null, by itself or under `equals`. -/
def DemandsNull : Json → Prop
  | .null => True
  | .obj operators => Entries.get? operators equality = some .null
  | _ => False

theorem demandsNull_mergeCondition (present : Json) :
    DemandsNull (mergeCondition present .null) := by
  cases present with
  | obj operators => simp [mergeCondition, meet, DemandsNull]
  | _ => simp [mergeCondition, meet, DemandsNull]

theorem get?_mergeField_null (target : Fields) {field : String} (h : ¬ Logical field) :
    ∃ value, (mergeField target field .null).get? field = some value ∧ DemandsNull value := by
  cases hpresent : target.get? field with
  | none =>
    rw [mergeField_of_get?_eq_none (ne_conjunction_of_not_logical h) hpresent]
    exact ⟨.null, Entries.get?_insert_self .., trivial⟩
  | some present =>
    rw [mergeField_of_get?_eq_some h hpresent]
    exact ⟨_, Entries.get?_insert_self .., demandsNull_mergeCondition present⟩

variable {db : Database} (row : db.Row)

/-- A row on which a condition that demands null holds has null there. -/
theorem eq_none_of_demandsNull {field : String} {value : Json} (hnull : DemandsNull value)
    (h : verdict row (ofField field value) = some .holds) : row field = none := by
  rw [← Database.Row.isNull_eq_holds]
  cases value with
  | null => exact Option.some.inj h
  | obj operators =>
    rw [verdict_ofField_obj, Verdict.all_eq_holds] at h
    exact Option.some.inj (h _ (List.mem_map_of_mem (Entries.mem_of_get? hnull)))
  | _ => exact hnull.elim

theorem eq_none_of_get? {tree : Fields} {field : String} {value : Json} (hfield : ¬ Logical field)
    (hget : tree.get? field = some value) (hnull : DemandsNull value) {condition : Condition}
    (hcondition : ofWhere tree = .ok condition) (hholds : condition.truth row = .holds) :
    row field = none := by
  have h : verdict row (ofWhere tree) = some .holds :=
    (verdict_eq_some_iff row _ _).mpr ⟨condition, hcondition, hholds⟩
  rw [verdict_of_get?_eq_some row hget, Verdict.and_eq_holds, ofEntry_of_not_logical hfield] at h
  exact eq_none_of_demandsNull row hnull h.1

end Where

/-- Neither the filters before the marker nor the search after it take the null away. -/
theorem Shorthand.get?_condition_marker {options : Shorthand} (hsoft : options.softDelete = true)
    {field : String} (hfield : ¬ Where.Logical field) :
    ∃ value, (options.condition (some field)).get? field = some value ∧
      Where.DemandsNull value := by
  obtain ⟨value, hget, hnull⟩ := Where.get?_mergeField_null
    (Where.merge [] (Filter.parse (options.filters.getD []))) hfield
  refine ⟨value, ?_, hnull⟩
  simp only [Shorthand.condition, hsoft]
  cases options.search.bind Search.clauses? with
  | none => exact hget
  | some clauses =>
    simp only [Where.Logical, not_or] at hfield
    exact (Where.get?_mergeField_of_ne _ _ hfield.2.1 hfield.1).trans hget

namespace Service

open Sql SessionM

variable {σ : Type} (service : Service σ)

theorem get?_normalize_marker {field : String} (hmarker : service.config.marker = some field)
    (hfield : ¬ Where.Logical field) {options : Shorthand} (hsoft : options.softDelete = true)
    {base : Option Fields} (hbase : ∀ entries ∈ base, entries.get? field = none) :
    ∃ tree value, (service.normalize base (.shorthand options)).condition = some tree ∧
      tree.get? field = some value ∧ Where.DemandsNull value := by
  obtain ⟨value, hget, hnull⟩ := Shorthand.get?_condition_marker hsoft hfield
  have hcompiled : (options.compile service.config.marker).condition =
      some (options.condition (some field)) := by
    have hne : options.condition (some field) ≠ [] := by
      intro hempty
      simp [hempty, Entries.get?] at hget
    simp [Shorthand.compile, hmarker, hne]
  cases base with
  | none => exact ⟨_, value, by simp [normalize, hcompiled, mergeWhere], hget, hnull⟩
  | some entries =>
    have habsent := (Entries.get?_eq_none_iff entries field).mp (hbase entries rfl)
    refine ⟨Where.merge (options.condition (some field)) entries, value,
      by simp [normalize, hcompiled, mergeWhere], ?_, hnull⟩
    rw [Where.get?_merge_of_forall_ne _ _ habsent (Where.ne_conjunction_of_not_logical hfield),
      hget]

/-- Reads with the soft-delete flag find no row that has a mark, whatever else they ask for, and a
soft delete writes that same mark. -/
theorem marked_rows_hidden {field : String} (hmarker : service.config.marker = some field)
    (hfield : ¬ Where.Logical field) (options : Shorthand) (hsoft : options.softDelete = true)
    (base : Option Fields) (hbase : ∀ entries ∈ base, entries.get? field = none) :
    (∃ tree value, (service.normalize base (.shorthand options)).condition = some tree ∧
      tree.get? field = some value ∧ Where.DemandsNull value ∧
      ∀ (db : Database) (row : db.Row) (condition : Condition),
        Condition.ofWhere tree = .ok condition → condition.truth row = .holds →
          row field = none) ∧
    ∀ (request : Request) (session : Session σ),
      (∃ arguments,
        (runFrom session (service.delete request .soft)).2.calls =
          session.calls ++ [.delegate service.delegate.name .update arguments] ∧
        arguments.data = some (.obj [(field, .str (service.stamp session.now))])) ∧
      ∃ arguments,
        (runFrom session (service.deleteMany request .soft)).2.calls =
          session.calls ++ [.delegate service.delegate.name .updateMany arguments] ∧
        arguments.data = some (.obj [(field, .str (service.stamp session.now))]) := by
  constructor
  · obtain ⟨tree, value, htree, hget, hnull⟩ :=
      service.get?_normalize_marker hmarker hfield hsoft hbase
    refine ⟨tree, value, htree, hget, hnull, ?_⟩
    intro db row condition hcondition hholds
    exact Where.eq_none_of_get? row hfield hget hnull hcondition hholds
  · intro request session
    constructor
    · exact ⟨_, service.calls_deleteBy_soft hmarker session .delete .update request, rfl⟩
    · exact ⟨_, service.calls_deleteBy_soft hmarker session .deleteMany .updateMany request, rfl⟩

/-- Filters that ask for a mark in three ways find no marked row. -/
theorem marked_rows_hidden_from_filters :
    let options : Shorthand :=
      { filters := some [("OR", .arr [.obj [("deletedAt", .obj [("gt", .num (.int 0))])]]),
          ("deletedAt", .obj [("equals", .num (.int 7))]), ("deletedAt:gte", .num (.int 5))]
        softDelete := true }
    let service := vacant (some "deletedAt")
    ∃ tree, (service.normalize (some [("age", .num (.int 30))]) (.shorthand options)).condition =
        some tree ∧ (Condition.ofWhere tree).isOk = true ∧
      ∀ (row : Database.integers.Row) (condition : Condition),
        Condition.ofWhere tree = .ok condition → condition.truth row = .holds →
          row "deletedAt" = none := by
  intro options service
  have hmarker : service.config.marker = some "deletedAt" := rfl
  obtain ⟨⟨tree, value, htree, -, -, hrow⟩, -⟩ := marked_rows_hidden service hmarker (by decide)
    options rfl (some [("age", .num (.int 30))]) (by rintro entries ⟨⟩; rfl)
  exact ⟨tree, htree, by cases htree; rfl, hrow Database.integers⟩

end Service

end RecordQuery
