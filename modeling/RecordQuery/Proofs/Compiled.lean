import RecordQuery.Proofs.Merging
import RecordQuery.Proofs.Reading
import RecordQuery.Shorthand

/-!
# The condition of a shorthand

Filters, the marker and the search come into one where map one after the other. The map asks for
what the three ask for together: the filters as they were parsed, null under the marker, and the
term in any of the fields. It is refused exactly when the filters are.
-/

namespace RecordQuery

open Sql Sql.Condition

variable {db : Database} (row : db.Row)

namespace Filter

theorem sorted_parse (filters : Fields) : (parse filters).Sorted :=
  Where.sorted_merge .nil _

theorem listsClauses_parse (filters : Fields) : Where.ListsClauses (parse filters) :=
  Where.listsClauses_merge (by intro value h; simp [Entries.get?] at h) _

/-- Parsed filters are merged already. -/
theorem merge_parse (filters : Fields) : Where.merge [] (parse filters) = parse filters :=
  Where.merge_eq_append (sorted_parse filters) (listsClauses_parse filters) (by simp)

end Filter

namespace Where

/-- A condition beside which null can be asked for: null itself, or operators without an equality
that null would replace. -/
def AdmitsNull : Json → Prop
  | .null => True
  | .obj operators => Entries.get? operators equality = none
  | _ => False

theorem verdict_ofField_null (column : String) :
    verdict row (ofField column .null) = some (row.isNull column) :=
  rfl

theorem verdict_mergeCondition_null (column : String) {present : Json} (h : AdmitsNull present) :
    verdict row (ofField column (mergeCondition present .null)) =
      Verdict.and (verdict row (ofField column .null)) (verdict row (ofField column present)) := by
  cases present with
  | null => simp [mergeCondition, meet]
  | obj operators =>
    rw [mergeCondition_obj_plain operators rfl, verdict_ofField_insert_equality row column h rfl]
  | _ => exact h.elim

/-- Null under a field that admits it holds beside the map. -/
theorem verdict_mergeField_null {target : Fields} (h : target.Sorted) {field : String}
    (hfield : ¬ Logical field) (hadmits : ∀ present ∈ target.get? field, AdmitsNull present) :
    verdict row (ofWhere (mergeField target field .null)) =
      Verdict.and (some (row.isNull field)) (verdict row (ofWhere target)) := by
  rw [← verdict_ofField_null, ← ofEntry_of_not_logical hfield]
  cases hpresent : target.get? field with
  | none =>
    rw [mergeField_of_get?_eq_none (ne_conjunction_of_not_logical hfield) hpresent,
      verdict_insert_of_get?_eq_none row hpresent]
  | some present =>
    exact verdict_mergeField_field row h hfield hpresent
      (verdict_mergeCondition_null row field (hadmits present hpresent))

end Where

namespace Search

/-- Whether the term stands in any of the fields, ignoring case. -/
def truth (search : Search) : Truth :=
  .any (search.fields.map fun field => Where.matched row field .anywhere true (.str search.term))

theorem contains_condition (term : String) :
    Operator.contains.condition (.str term) =
      .obj [(Where.caseFlag, .bool true), ("contains", .str term)] := by
  have hlt : ("caseInsensitive" : String) < "contains" := by decide
  simp [Operator.condition, Operator.key, Entries.ofList, Entries.insertAll, Entries.insert,
    Where.caseFlag, hlt]

theorem ofEntries_clause {field : String} (h : ¬ Where.Logical field) (term : String) :
    ofEntries [(field, Operator.contains.condition (.str term))] =
      .ok [all [.predicate (.like field true
        (String.ofList (Text.upper (Anchor.anywhere.pattern term.toList))))]] := by
  rw [ofEntries_cons, ofEntry_of_not_logical h, contains_condition]
  rfl

/-- Each field gives the clauses one condition, which is true when the term stands there. -/
theorem truths_ofItems_clauses (term : String) (fields : List String)
    (h : ∀ field ∈ fields, ¬ Where.Logical field) :
    ∃ clauses, ofItems (fields.map fun field =>
        .obj [(field, Operator.contains.condition (.str term))]) = .ok clauses ∧
      clauses.map (Condition.truth row) =
        fields.map fun field => Where.matched row field .anywhere true (.str term) := by
  induction fields with
  | nil => exact ⟨[], rfl, rfl⟩
  | cons field rest ih =>
    obtain ⟨hfield, hrest⟩ := List.forall_mem_cons.mp h
    obtain ⟨more, hmore, htruths⟩ := ih hrest
    refine ⟨_, (ofItems_cons_eq_ok _ _ _).mpr
      ⟨_, more, ofEntries_clause hfield term, hmore, rfl⟩, ?_⟩
    simp [htruths, Condition.truth, Predicate.truth, Where.matched]

theorem verdict_clauses? {search : Search} {clauses : Json} (h : search.clauses? = some clauses)
    (hfields : ∀ field ∈ search.fields, ¬ Where.Logical field) :
    verdict row (ofEntry Where.disjunction clauses) = some (search.truth row) := by
  obtain ⟨parts, hparts, htruths⟩ := truths_ofItems_clauses row search.term search.fields hfields
  simp only [clauses?, Option.ite_none_right_eq_some, Option.some.injEq] at h
  obtain ⟨-, rfl⟩ := h
  have hentry : ofEntry Where.disjunction (.arr (search.fields.map fun field =>
      .obj [(field, Operator.contains.condition (.str search.term))])) = .ok (any parts) := by
    have hobj : ∀ field, (Json.obj [(field, Operator.contains.condition (.str search.term))]).isObj
        = true := fun _ => rfl
    simp [ofEntry, Where.disjunction, Where.conjunction, ofClauses, hobj, hparts, Functor.map,
      Except.map]
  rw [hentry, verdict, truth_any, htruths, truth]

theorem isActive_iff (search : Search) :
    search.isActive = true ↔ search.term ≠ "" ∧ search.fields ≠ [] := by
  simp [isActive]

end Search

namespace Shorthand

variable (options : Shorthand) (marker : Option String)

/-- The row has no mark, if that is asked for. -/
def unmarked : Truth :=
  match options.softDelete, marker with
  | true, some field => row.isNull field
  | _, _ => .holds

/-- The search finds the row, if there is one with a term and with fields. -/
def found : Truth :=
  match options.search with
  | some search =>
    if search.term ≠ "" ∧ search.fields ≠ [] then search.truth row else .holds
  | none => .holds

theorem found_of_clauses?_eq_none (h : options.search.bind Search.clauses? = none) :
    options.found row = .holds := by
  unfold found
  split
  · rename_i search hsearch
    have hinactive : ¬ (search.term ≠ "" ∧ search.fields ≠ []) := by
      rw [← Search.isActive_iff]
      simpa [hsearch, Search.clauses?] using h
    rw [if_neg hinactive]
  · rfl

theorem found_of_clauses?_eq_some {search : Search} (hsearch : options.search = some search)
    {clauses : Json} (h : search.clauses? = some clauses) :
    options.found row = search.truth row := by
  have hactive : search.term ≠ "" ∧ search.fields ≠ [] := by
    simp only [Search.clauses?, Option.ite_none_right_eq_some] at h
    exact (Search.isActive_iff search).mp h.1
  simp only [found, hsearch]
  rw [if_pos hactive]

/-- The map that a search comes into holds the filters and the null under the marker. -/
theorem exists_condition_eq (hmarker : ∀ field ∈ marker, ¬ Where.Logical field)
    (hadmits : ∀ field ∈ marker, ∀ present ∈ (Filter.parse (options.filters.getD [])).get? field,
      Where.AdmitsNull present) :
    ∃ live : Fields, live.Sorted ∧
      (∀ {db : Database} (row : db.Row), verdict row (ofWhere live) =
        Verdict.and (some (options.unmarked row marker))
          (verdict row (ofWhere (Filter.parse (options.filters.getD []))))) ∧
      options.condition marker = match options.search.bind Search.clauses? with
        | some clauses => Where.mergeField live Where.disjunction clauses
        | none => live := by
  have hsorted := Filter.sorted_parse (options.filters.getD [])
  simp only [condition, Filter.merge_parse, unmarked]
  refine ⟨_, ?_, ?_, rfl⟩
  · split
    · exact Where.sorted_mergeField hsorted _ _
    · exact hsorted
  · intro db row
    cases options.softDelete with
    | false => simp
    | true =>
      cases marker with
      | none => simp
      | some field =>
        exact Where.verdict_mergeField_null row hsorted (hmarker field rfl) (hadmits field rfl)

/-- The parts of the condition hold together, and only the filters can refuse it. -/
theorem verdict_condition (hmarker : ∀ field ∈ marker, ¬ Where.Logical field)
    (hfields : ∀ search ∈ options.search, ∀ field ∈ search.fields, ¬ Where.Logical field)
    (hadmits : ∀ field ∈ marker, ∀ present ∈ (Filter.parse (options.filters.getD [])).get? field,
      Where.AdmitsNull present) :
    verdict row (ofWhere (options.condition marker)) =
      Verdict.and (some (options.found row)) (Verdict.and (some (options.unmarked row marker))
        (verdict row (ofWhere (Filter.parse (options.filters.getD []))))) := by
  obtain ⟨live, hsorted, hlive, hcondition⟩ := options.exists_condition_eq marker hmarker hadmits
  rw [hcondition, ← hlive row]
  cases hclauses : options.search.bind Search.clauses? with
  | none =>
    rw [options.found_of_clauses?_eq_none row hclauses, Verdict.holds_and]
  | some clauses =>
    obtain ⟨search, hsearch, hclauses⟩ := Option.bind_eq_some_iff.mp hclauses
    have hlogical : Where.Logical Where.disjunction := .inr (.inl rfl)
    rw [options.found_of_clauses?_eq_some row hsearch hclauses]
    simp only
    rw [Where.verdict_mergeField_logical row hsorted hlogical,
      Search.verdict_clauses? row hclauses (hfields search hsearch)]

/-- An absent condition is read as one without entries, which holds on every row. -/
theorem ofWhere_compile_getD :
    ofWhere ((options.compile marker).condition.getD []) = ofWhere (options.condition marker) := by
  simp only [compile]
  split
  · rename_i hempty
    rw [List.isEmpty_iff.mp hempty, Option.getD_none]
  · rw [Option.getD_some]

/-- A compiled shorthand asks for its filters, for no mark and for the term of its search, all
together, and it has a condition whenever its filters have one. -/
theorem truth_compile (hmarker : ∀ field ∈ marker, ¬ Where.Logical field)
    (hfields : ∀ search ∈ options.search, ∀ field ∈ search.fields, ¬ Where.Logical field)
    (hadmits : ∀ field ∈ marker, ∀ present ∈ (Filter.parse (options.filters.getD [])).get? field,
      Where.AdmitsNull present) :
    (ofWhere ((options.compile marker).condition.getD [])).isOk =
        (ofWhere (Filter.parse (options.filters.getD []))).isOk ∧
      ∀ (db : Database) (row : db.Row) (condition filtered : Condition),
        ofWhere ((options.compile marker).condition.getD []) = .ok condition →
        ofWhere (Filter.parse (options.filters.getD [])) = .ok filtered →
          condition.truth row =
            (filtered.truth row).and ((options.unmarked row marker).and (options.found row)) := by
  rw [ofWhere_compile_getD]
  constructor
  · -- Whether there is a condition does not depend on the row, so any row will do.
    let row : Database.integers.Row := fun _ => none
    rw [← isSome_verdict row, ← isSome_verdict row,
      options.verdict_condition row marker hmarker hfields hadmits]
    cases verdict row (ofWhere (Filter.parse (options.filters.getD []))) <;> rfl
  · intro db row condition filtered hcondition hfiltered
    have hverdict := options.verdict_condition row marker hmarker hfields hadmits
    rw [hcondition, hfiltered] at hverdict
    have htruth := Option.some.inj hverdict
    rw [htruth, Truth.and_comm, Truth.and_comm (options.unmarked row marker), Truth.and_assoc]

/-- A search beside filters that have a disjunction, a conjunction and operators on the marker. -/
theorem truth_compile_beside_clauses :
    let options : Shorthand :=
      { filters := some [("AND", .obj [("age", .obj [("lt", .num (.int 65))])]),
          ("OR", .arr [.obj [("age", .num (.int 30))], .obj [("rank", .num (.int 2))]]),
          ("deletedAt:lt", .num (.int 9))]
        search := some ⟨"Bob", ["name", "city"]⟩
        softDelete := true }
    (ofWhere ((options.compile (some "deletedAt")).condition.getD [])).isOk = true ∧
      ∀ (row : Database.integers.Row) (condition filtered : Condition),
        ofWhere ((options.compile (some "deletedAt")).condition.getD []) = .ok condition →
        ofWhere (Filter.parse (options.filters.getD [])) = .ok filtered →
          condition.truth row = (filtered.truth row).and
            ((options.unmarked row (some "deletedAt")).and (options.found row)) := by
  intro options
  have hmarker : ∀ field ∈ some "deletedAt", ¬ Where.Logical field := by
    simp only [Option.mem_some_iff, forall_eq']
    decide
  have hfields : ∀ search ∈ options.search, ∀ field ∈ search.fields, ¬ Where.Logical field := by
    simp only [options, Option.mem_some_iff, forall_eq']
    decide
  have hget : (Filter.parse (options.filters.getD [])).get? "deletedAt" =
      some (.obj [("lt", .num (.int 9))]) := by
    decide +kernel
  have hadmits : ∀ field ∈ some "deletedAt",
      ∀ present ∈ (Filter.parse (options.filters.getD [])).get? field,
        Where.AdmitsNull present := by
    simp only [Option.mem_some_iff, forall_eq', hget]
    rfl
  obtain ⟨hok, htruth⟩ := truth_compile options (some "deletedAt") hmarker hfields hadmits
  have hfiltered : (ofWhere (Filter.parse (options.filters.getD []))).isOk = true := by
    decide +kernel
  exact ⟨hok.trans hfiltered, htruth Database.integers⟩

end Shorthand

end RecordQuery
