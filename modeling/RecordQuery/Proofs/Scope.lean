import RecordQuery.Proofs.Kept
import RecordQuery.Proofs.Runs

/-!
# A base condition beside a request

A base condition that is merged into the condition of a request stays in force as long as its
operators keep their say. Its clauses are joined to those of the request, its plain values win, and
its operators stand beside those of the request.
-/

namespace RecordQuery

namespace Where

open Sql Sql.Condition

variable {db : Database} (row : db.Row)

/-- Every logical entry of a map holds. -/
def ClausesHold (target : Fields) : Prop :=
  ∀ key value, Logical key → target.get? key = some value →
    verdict row (ofEntry key value) = some .holds

theorem clausesHold_of_holds {target : Fields} (h : verdict row (ofWhere target) = some .holds) :
    ClausesHold row target := by
  intro key value _ hget
  rw [verdict_of_get?_eq_some row hget, Verdict.and_eq_holds] at h
  exact h.1

theorem clausesHold_conjoin {target : Fields} {clause : Json}
    (h : ClausesHold row (conjoin target clause)) :
    ClausesHold row target ∧ verdict row (ofEntry conjunction clause) = some .holds := by
  have hconj := h conjunction _ (.inl rfl) (Entries.get?_insert_self ..)
  rw [verdict_conjunction, Json.toList, List.map_append, Verdict.all_append,
    Verdict.and_eq_holds, ← verdict_conjunction row clause] at hconj
  refine ⟨?_, hconj.2⟩
  intro key value hkey hget
  by_cases heq : key = conjunction
  · subst heq
    rw [verdict_conjunction]
    simpa [hget] using hconj.1
  · exact h key value hkey (by rwa [get?_conjoin_of_ne target clause heq])

theorem clausesHold_mergeField {target : Fields} {key : String} {value : Json}
    (h : ClausesHold row (mergeField target key value)) :
    ClausesHold row target ∧
      (Logical key → verdict row (ofEntry key value) = some .holds) := by
  by_cases hconj : key = conjunction
  · subst hconj
    obtain ⟨htarget, hclause⟩ := clausesHold_conjoin row (by simpa using h)
    exact ⟨htarget, fun _ => hclause⟩
  · cases hpresent : target.get? key with
    | none =>
      rw [mergeField_of_get?_eq_none hconj hpresent] at h
      constructor
      · intro other present hother hget
        have hne : other ≠ key := by
          rintro rfl
          simp [hpresent] at hget
        exact h other present hother (by rwa [Entries.get?_insert_of_ne _ _ hne])
      · intro hkey
        exact h key value hkey (Entries.get?_insert_self ..)
    | some present =>
      by_cases hkey : Logical key
      · rw [mergeField_second hconj hkey hpresent] at h
        obtain ⟨htarget, hclause⟩ := clausesHold_conjoin row h
        exact ⟨htarget, fun _ => by rwa [verdict_conjunction_singleton] at hclause⟩
      · rw [mergeField_of_get?_eq_some hkey hpresent] at h
        refine ⟨?_, fun hlogical => absurd hlogical hkey⟩
        intro other old hother hget
        have hne : other ≠ key := by
          rintro rfl
          exact hkey hother
        exact h other old hother (by rwa [Entries.get?_insert_of_ne _ _ hne])

/-- No clause of either side is lost by a merge. -/
theorem clausesHold_merge {target incoming : Fields}
    (h : ClausesHold row (merge target incoming)) :
    ClausesHold row target ∧ ∀ entry ∈ incoming, Logical entry.1 →
      verdict row (ofEntry entry.1 entry.2) = some .holds := by
  induction incoming generalizing target with
  | nil => exact ⟨by simpa using h, by simp⟩
  | cons entry rest ih =>
    obtain ⟨key, value⟩ := entry
    rw [merge_cons] at h
    obtain ⟨hmerged, hrest⟩ := ih h
    obtain ⟨htarget, hentry⟩ := clausesHold_mergeField row hmerged
    refine ⟨htarget, ?_⟩
    intro later hlater
    rcases List.mem_cons.mp hlater with rfl | hmem
    · exact hentry
    · exact hrest later hmem

theorem fieldTruth_plain (column : String) {value : Json} (h : value.isObj = false) :
    fieldTruth row column value = equal row column value := by
  cases value with
  | obj operators => simp [Json.isObj] at h
  | _ => rfl

/-- Operators that a plain value meets go on holding together with it. -/
theorem operatorsTruth_of_insert_equality (column : String) {own : Fields} (hown : own.Sorted)
    (habsent : own.get? equality = none) {value : Json}
    (h : fieldTruth row column (.obj (own.insert equality value)) = .holds) :
    fieldTruth row column (.obj own) = .holds := by
  have hne : equality ≠ caseFlag := by decide
  rw [fieldTruth, ignoresCase_insert_of_ne own hne, operatorsTruth_eq_holds] at h
  rw [fieldTruth, operatorsTruth_eq_holds]
  intro entry hentry
  have hget := hown.get?_of_mem hentry
  have hother : entry.1 ≠ equality := by
    intro heq
    rw [heq, habsent] at hget
    simp at hget
  rw [← Entries.get?_insert_of_ne own value hother] at hget
  exact h _ (Entries.mem_of_get? hget)

/-- What a field asks for still holds after it met a condition beside which it keeps its say. -/
theorem fieldTruth_of_mergeInto (column : String) {present : Option Json}
    (hpresent : ∀ given ∈ present, given.Ordered) {value : Json} (hvalue : value.Ordered)
    {part : Condition} (hpart : ofField column value = .ok part)
    (hkeeps : ∀ given own, present = some (.obj given) → value = .obj own → ¬ Keeps given own →
      fieldTruth row column (.obj own) = .holds)
    (h : fieldTruth row column (mergeInto present value) = .holds) :
    fieldTruth row column value = .holds := by
  cases present with
  | none => exact h
  | some given =>
    have hordered := hpresent given rfl
    rw [mergeInto] at h
    by_cases hplain : value.isObj = false
    · cases given with
      | obj given =>
        rw [mergeCondition_obj_plain given hplain, fieldTruth] at h
        rw [fieldTruth_plain row column hplain]
        exact carries_equality row column false _ hordered.sorted hplain (by simp) h
      | _ => rwa [mergeCondition_plain rfl hplain] at h
    · obtain ⟨own, rfl⟩ : ∃ own, value = .obj own := by
        cases value <;> simp [Json.isObj] at hplain ⊢
      cases given with
      | obj given =>
        simp only [ofField, bind_eq_ok] at hpart
        obtain ⟨parts, hparts, -⟩ := hpart
        by_cases hsay : Keeps given own
        · rw [mergeCondition_obj, fieldTruth] at h
          exact operatorsTruth_of_keeps row column hordered hvalue hsay hparts h
        · exact hkeeps given own rfl rfl hsay
      | _ =>
        simp only [mergeCondition, meet] at h
        split at h
        · exact h
        · rename_i habsent
          exact operatorsTruth_of_insert_equality row column hvalue.sorted
            (by simpa [Entries.contains] using habsent) h

theorem exists_ofEntry_of_mem {entries : Fields} {condition : Condition}
    (h : ofWhere entries = .ok condition) :
    ∀ entry ∈ entries, ∃ part, ofEntry entry.1 entry.2 = .ok part := by
  obtain ⟨parts, hparts, -⟩ := (map_eq_ok _ _ _).mp h
  clear h
  induction entries generalizing parts with
  | nil => simp
  | cons entry rest ih =>
    obtain ⟨key, value⟩ := entry
    obtain ⟨part, more, hpart, hmore, -⟩ := (ofEntries_cons_eq_ok key value rest parts).mp hparts
    exact List.forall_mem_cons.mpr ⟨⟨part, hpart⟩, ih more hmore⟩

/-- A row that meets a merged map meets the map that came in, if it does so on each field where the
operators that came in do not keep their say. -/
theorem holds_of_merge {target base : Fields} (htarget : (Json.obj target).Ordered)
    (hbase : (Json.obj base).Ordered) {own : Condition} (hown : ofWhere base = .ok own)
    (hmerged : verdict row (ofWhere (merge target base)) = some .holds)
    (hkeeps : ∀ field given operators, ¬ Logical field → target.get? field = some (.obj given) →
      base.get? field = some (.obj operators) → ¬ Keeps given operators →
        fieldTruth row field (.obj operators) = .holds) :
    own.truth row = .holds := by
  obtain ⟨-, hclauses⟩ := clausesHold_merge row (clausesHold_of_holds row hmerged)
  suffices hall : verdict row (ofWhere base) = some .holds by
    rw [hown] at hall
    exact Option.some.inj hall
  rw [verdict_ofWhere, Verdict.all_eq_holds]
  intro value hvalue
  obtain ⟨⟨field, entry⟩, hmem, rfl⟩ := List.mem_map.mp hvalue
  by_cases hfield : Logical field
  · exact hclauses _ hmem hfield
  · have hget := hbase.sorted.get?_of_mem hmem
    rw [verdict_of_get?_eq_some row (get?_merge_of_get?_eq_some target hbase.sorted hfield hget),
      Verdict.and_eq_holds, ofEntry_of_not_logical hfield, verdict_eq_some_iff] at hmerged
    obtain ⟨⟨joined, hjoined, htruth⟩, -⟩ := hmerged
    obtain ⟨part, hpart⟩ := exists_ofEntry_of_mem hown _ hmem
    rw [ofEntry_of_not_logical hfield] at hpart ⊢
    have hfieldTruth : fieldTruth row field entry = .holds := by
      refine fieldTruth_of_mergeInto row field (fun given hgiven => htarget.of_get? hgiven)
        (hbase.of_get? hget) hpart ?_ ((truth_ofField row hjoined).symm.trans htruth)
      rintro given operators hgiven rfl
      exact hkeeps field given operators hfield hgiven hget
    rw [hpart, verdict, truth_ofField row hpart, hfieldTruth]

/-- A map that holds on a row holds on each of its fields. -/
theorem fieldTruth_of_holds {base : Fields} {own : Condition} (hown : ofWhere base = .ok own)
    (h : own.truth row = .holds) {field : String} (hfield : ¬ Logical field) {value : Json}
    (hget : base.get? field = some value) : fieldTruth row field value = .holds := by
  have hverdict : verdict row (ofWhere base) = some .holds :=
    (verdict_eq_some_iff row _ _).mpr ⟨own, hown, h⟩
  rw [verdict_of_get?_eq_some row hget, Verdict.and_eq_holds, ofEntry_of_not_logical hfield,
    verdict_eq_some_iff] at hverdict
  obtain ⟨⟨part, hpart, htruth⟩, -⟩ := hverdict
  exact (truth_ofField row hpart).symm.trans htruth

end Where

namespace Service

open Sql

variable {σ : Type} (service : Service σ)

/-- On a row that is found, the base condition holds if and only if it does so on each field where
its operators do not keep their say beside those of the request. -/
theorem base_holds_iff (options : Shorthand) (base : Fields)
    (hoptions : ∀ filters ∈ options.filters, (Json.obj filters).Ordered)
    (hbase : (Json.obj base).Ordered) :
    ∃ tree, (service.normalize (some base) (.shorthand options)).condition = some tree ∧
      ∀ (db : Database) (row : db.Row) (condition own : Condition),
        Condition.ofWhere tree = .ok condition → Condition.ofWhere base = .ok own →
          condition.truth row = .holds →
            (own.truth row = .holds ↔ ∀ field given operators, ¬ Where.Logical field →
              ((options.compile service.config.marker).condition.getD []).get? field =
                some (.obj given) → base.get? field = some (.obj operators) →
              ¬ Where.Keeps given operators →
                Where.fieldTruth row field (.obj operators) = .holds) := by
  cases hcompiled : (options.compile service.config.marker).condition with
  | none =>
    refine ⟨base, by simp [normalize, hcompiled, mergeWhere], ?_⟩
    intro db row condition own hcondition hown hholds
    obtain rfl : condition = own := Except.ok.inj (hcondition.symm.trans hown)
    simp [hholds, Entries.get?]
  | some compiled =>
    have hordered := options.ordered_compile service.config.marker hoptions compiled hcompiled
    refine ⟨Where.merge compiled base, by simp [normalize, hcompiled, mergeWhere], ?_⟩
    intro db row condition own hcondition hown hholds
    constructor
    · intro hall field given operators hfield _ hget _
      exact Where.fieldTruth_of_holds row hown hall hfield hget
    · intro hfields
      exact Where.holds_of_merge row hordered hbase hown
        ((verdict_eq_some_iff row _ _).mpr ⟨condition, hcondition, hholds⟩) hfields

/-- A denial keeps its say beside one of the same operator, so every row that is found is one that
the base condition holds on. -/
theorem base_holds_beside_denial :
    let options : Shorthand :=
      { filters := some [("OR", .arr [.obj [("rank", .num (.int 2))]]),
          ("age", .obj [("not", .obj [("lt", .num (.int 21))])]), ("age:gte", .num (.int 20))] }
    let base : Fields := [("OR", .arr [.obj [("owner", .num (.int 1))]]),
      ("age", .obj [("lte", .num (.int 65)), ("not", .obj [("lt", .num (.int 18))])])]
    ∃ tree, ((vacant none).normalize (some base) (.shorthand options)).condition = some tree ∧
      ∀ (row : Database.integers.Row) (condition own : Condition),
        Condition.ofWhere tree = .ok condition → Condition.ofWhere base = .ok own →
          condition.truth row = .holds → own.truth row = .holds := by
  intro options base
  have hcompiled : (options.compile (vacant none).config.marker).condition =
      some [("OR", .arr [.obj [("rank", .num (.int 2))]]),
        ("age", .obj [("gte", .num (.int 20)), ("not", .obj [("lt", .num (.int 21))])])] := by
    decide +kernel
  have hoptions : ∀ filters ∈ options.filters, (Json.obj filters).Ordered := by
    rintro filters ⟨⟩
    decide
  have hbase : (Json.obj base).Ordered := by decide
  obtain ⟨tree, htree, hiff⟩ := base_holds_iff (vacant none) options base hoptions hbase
  refine ⟨tree, htree, ?_⟩
  intro row condition own hcondition hown hholds
  rw [hiff Database.integers row condition own hcondition hown hholds, hcompiled]
  intro field given operators hfield hgiven hoperators hnot
  have hage : field = "age" := by
    by_cases hor : field = "OR"
    · exact absurd (.inr (.inl hor)) hfield
    · by_cases hage : field = "age"
      · exact hage
      · simp [base, Entries.get?, hor, hage] at hoperators
  subst hage
  obtain rfl : [("gte", .num (.int 20)), ("not", .obj [("lt", .num (.int 21))])] = given := by
    simpa [Entries.get?] using hgiven
  obtain rfl : [("lte", .num (.int 65)), ("not", .obj [("lt", .num (.int 18))])] = operators := by
    simpa [base, Entries.get?] using hoperators
  exact absurd (by simp [Where.Keeps, Where.KeepsAll, Where.KeepsOne, Where.MatchesText,
    Where.AddsNothing, Where.operatorsOf, Entries.get?, Entries.contains]) hnot

/-- Two denied objects of one field become one denial of both, which a row of age five passes. -/
theorem base_weakened_by_denial :
    let options : Shorthand :=
      { filters := some [("age", .obj [("not", .obj [("gt", .num (.int 65))])])] }
    let base : Fields := [("age", .obj [("not", .obj [("lt", .num (.int 18))])])]
    let row : Database.integers.Row := fun _ => some (5 : Int)
    ∃ tree condition own,
      ((vacant none).normalize (some base) (.shorthand options)).condition = some tree ∧
      Condition.ofWhere tree = .ok condition ∧ Condition.ofWhere base = .ok own ∧
      condition.truth row = .holds ∧ own.truth row = .fails :=
  ⟨_, _, _, rfl, rfl, rfl, by decide, by decide⟩

end Service

end RecordQuery
