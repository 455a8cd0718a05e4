import RecordQuery.Proofs.Ordered
import RecordQuery.Proofs.Runs

/-!
# Conditions that go together

Two conditions of one field go together when neither has to give way to the other: they are the same
plain value, or a plain value beside operators without an equality, or operators of which no two
have one name and which treat case alike. Where maps whose fields go together are merged into their
conjunction, whatever clauses they have, and a request keeps exactly what it asks for beside a base
condition.
-/

namespace RecordQuery

namespace Where

open Sql Sql.Condition

/-- Conditions of one field of which neither gives way to the other. -/
inductive GoTogether : Json → Json → Prop where
  | same {value : Json} (plain : value.isObj = false) : GoTogether value value
  | plainBeside {value : Json} {operators : Fields} (plain : value.isObj = false)
      (absent : operators.get? equality = none) : GoTogether value (.obj operators)
  | besidePlain {operators : Fields} {value : Json} (plain : value.isObj = false)
      (absent : operators.get? equality = none) : GoTogether (.obj operators) value
  | apart {given own : Fields}
      (disjoint : ∀ operator, given.contains operator = true → own.contains operator = true →
        operator = caseFlag)
      (flag : given.get? caseFlag = own.get? caseFlag) : GoTogether (.obj given) (.obj own)

theorem GoTogether.symm {present value : Json} (h : GoTogether present value) :
    GoTogether value present := by
  cases h with
  | same plain => exact .same plain
  | plainBeside plain absent => exact .besidePlain plain absent
  | besidePlain plain absent => exact .plainBeside plain absent
  | apart disjoint flag =>
    exact .apart (fun operator hown hgiven => disjoint operator hgiven hown) flag.symm

/-- The conditions that two maps have for one field go together. Their clauses may be any. -/
def Compatible (target incoming : Fields) : Prop :=
  ∀ field present value, ¬ Logical field → target.get? field = some present →
    incoming.get? field = some value → GoTogether present value

theorem Compatible.symm {target incoming : Fields} (h : Compatible target incoming) :
    Compatible incoming target :=
  fun field present value hfield hpresent hvalue =>
    (h field value present hfield hvalue hpresent).symm

/-- One map holds where two others both hold, and has a condition when both of them have one. -/
def Conjoins (whole left right : Fields) : Prop :=
  (ofWhere whole).isOk = ((ofWhere left).isOk && (ofWhere right).isOk) ∧
    ∀ (db : Database) (row : db.Row) (condition first second : Condition),
      ofWhere whole = .ok condition → ofWhere left = .ok first → ofWhere right = .ok second →
        condition.truth row = (first.truth row).and (second.truth row)

theorem conjoins_of_verdict {whole left right : Fields}
    (h : ∀ {db : Database} (row : db.Row), verdict row (ofWhere whole) =
      Verdict.and (verdict row (ofWhere left)) (verdict row (ofWhere right))) :
    Conjoins whole left right := by
  constructor
  · -- Whether there is a condition does not depend on the row, so any row will do.
    let row : Database.integers.Row := fun _ => none
    rw [← isSome_verdict row, ← isSome_verdict row, ← isSome_verdict row, h row]
    cases verdict row (ofWhere left) <;> cases verdict row (ofWhere right) <;> rfl
  · intro db row condition first second hwhole hleft hright
    have hverdict := h row
    rw [hwhole, hleft, hright] at hverdict
    exact Option.some.inj hverdict

variable {db : Database} (row : db.Row)

/-- An operator that no other shares its name with is put beside the others; the case flag, which
asks for nothing by itself, may be there already. -/
theorem exists_mergeField_operator (column : String) (ignoreCase : Bool) {given : Fields}
    {operator : String} (h : given.get? operator = none ∨ operator = caseFlag) (operand : Json) :
    ∃ entered, mergeField given operator operand = given.insert operator entered ∧
      operatorVerdict row column ignoreCase operator entered =
        operatorVerdict row column ignoreCase operator operand := by
  by_cases hconj : operator = conjunction
  · subst hconj
    refine ⟨_, mergeField_conjunction given operand, ?_⟩
    -- No operator has the name of a logical key, so it is refused with any operand.
    cases operand <;> rfl
  · rcases h with habsent | rfl
    · exact ⟨operand, mergeField_of_get?_eq_none hconj habsent operand, rfl⟩
    · have hflag : ¬ Logical caseFlag := by decide
      cases hpresent : given.get? caseFlag with
      | none => exact ⟨operand, mergeField_of_get?_eq_none hconj hpresent operand, rfl⟩
      | some present => exact ⟨_, mergeField_of_get?_eq_some hflag hpresent operand, rfl⟩

theorem verdict_insert_operator (column : String) (ignoreCase : Bool) {given : Fields}
    (hgiven : given.Sorted) {operator : String}
    (h : given.get? operator = none ∨ operator = caseFlag) (operand : Json) :
    .all ((given.insert operator operand).map fun entry =>
        operatorVerdict row column ignoreCase entry.1 entry.2) =
      Verdict.and (operatorVerdict row column ignoreCase operator operand)
        (.all (given.map fun entry =>
          operatorVerdict row column ignoreCase entry.1 entry.2)) := by
  rw [Verdict.all_perm ((hgiven.insert_perm_erase operator operand).map _), List.map_cons,
    Verdict.all_cons]
  congr 1
  cases hpresent : given.get? operator with
  | none => rw [Entries.erase_of_get?_eq_none hpresent]
  | some present =>
    obtain rfl : operator = caseFlag := h.resolve_left (by simp [hpresent])
    rw [Verdict.all_perm ((Entries.perm_cons_erase hpresent).map _), List.map_cons,
      Verdict.all_cons]
    simp [operatorVerdict]

/-- Operators of different names are merged into the conjunction of both lists. The induction is on
the operators that come in, each of which leaves the others of them absent. -/
theorem verdict_merge_operators (column : String) (ignoreCase : Bool) {given own : Fields}
    (hgiven : given.Sorted) (hown : own.Sorted)
    (hdisjoint : ∀ entry ∈ own, given.get? entry.1 = none ∨ entry.1 = caseFlag) :
    .all ((merge given own).map fun entry =>
        operatorVerdict row column ignoreCase entry.1 entry.2) =
      Verdict.and
        (.all (own.map fun entry => operatorVerdict row column ignoreCase entry.1 entry.2))
        (.all (given.map fun entry =>
          operatorVerdict row column ignoreCase entry.1 entry.2)) := by
  induction own generalizing given with
  | nil => simp
  | cons entry rest ih =>
    obtain ⟨operator, operand⟩ := entry
    obtain ⟨hhead, htail⟩ := List.pairwise_cons.mp hown
    obtain ⟨hoperator, hrest⟩ := List.forall_mem_cons.mp hdisjoint
    obtain ⟨entered, hentered, hverdict⟩ :=
      exists_mergeField_operator row column ignoreCase hoperator operand
    have hlater : ∀ later ∈ rest,
        (given.insert operator entered).get? later.1 = none ∨ later.1 = caseFlag := by
      intro later hlater
      have hne : later.1 ≠ operator := (String.ne_of_lt (hhead later hlater)).symm
      rw [Entries.get?_insert_of_ne given entered hne]
      exact hrest later hlater
    rw [merge_cons, hentered, ih (hgiven.insert operator entered) htail hlater,
      verdict_insert_operator row column ignoreCase hgiven hoperator, hverdict, List.map_cons,
      Verdict.all_cons, Verdict.and_assoc, Verdict.and_left_comm]

theorem mergeCondition_self_eq_true (value : Json) :
    mergeCondition value value = .bool true ↔ value = .bool true := by
  cases value <;> simp [mergeCondition, meet]

/-- Two objects that agree on the case flag keep it when they are merged. -/
theorem ignoresCase_merge {given own : Fields} (hown : own.Sorted)
    (h : given.get? caseFlag = own.get? caseFlag) :
    ignoresCase (merge given own) = ignoresCase own := by
  have hflag : ¬ Logical caseFlag := by decide
  unfold ignoresCase
  cases hvalue : own.get? caseFlag with
  | none =>
    rw [get?_merge_of_get?_eq_none given (ne_conjunction_of_not_logical hflag) hvalue, h, hvalue]
  | some value =>
    rw [get?_merge_of_get?_eq_some given hown hflag hvalue, h, hvalue]
    simp [mergeInto, mergeCondition_self_eq_true]

/-- What a field asks for when two conditions that go together meet. -/
theorem verdict_mergeCondition (column : String) {present value : Json}
    (hpresent : present.Ordered) (hvalue : value.Ordered) (h : GoTogether present value) :
    verdict row (ofField column (mergeCondition present value)) =
      Verdict.and (verdict row (ofField column value)) (verdict row (ofField column present)) := by
  cases h with
  | same plain => rw [mergeCondition_plain plain plain, Verdict.and_self]
  | @plainBeside _ operators plain absent =>
    rw [mergeCondition_plain_obj plain absent,
      verdict_ofField_insert_equality row column absent plain, Verdict.and_comm]
  | besidePlain plain absent =>
    rw [mergeCondition_obj_plain _ plain, verdict_ofField_insert_equality row column absent plain]
  | @apart given own disjoint flag =>
    have hdisjoint : ∀ entry ∈ own, given.get? entry.1 = none ∨ entry.1 = caseFlag := by
      intro entry hentry
      have hcontains : own.contains entry.1 = true := by
        simp [Entries.contains, hvalue.sorted.get?_of_mem hentry]
      cases hgiven : given.get? entry.1 with
      | none => exact .inl rfl
      | some operand => exact .inr (disjoint _ (by simp [Entries.contains, hgiven]) hcontains)
    have hflag : ignoresCase given = ignoresCase own := by simp [ignoresCase, flag]
    rw [mergeCondition_obj, verdict_ofField_obj, verdict_ofField_obj, verdict_ofField_obj,
      ignoresCase_merge hvalue.sorted flag, hflag,
      verdict_merge_operators row column _ hpresent.sorted hvalue.sorted hdisjoint]

theorem verdict_mergeField {target : Fields} (htarget : (Json.obj target).Ordered) {key : String}
    {value : Json} (hvalue : value.Ordered)
    (h : ∀ present, ¬ Logical key → target.get? key = some present → GoTogether present value) :
    verdict row (ofWhere (mergeField target key value)) =
      Verdict.and (verdict row (ofEntry key value)) (verdict row (ofWhere target)) := by
  by_cases hlogical : Logical key
  · exact verdict_mergeField_logical row htarget.sorted hlogical value
  · cases hpresent : target.get? key with
    | none =>
      rw [mergeField_of_get?_eq_none (ne_conjunction_of_not_logical hlogical) hpresent,
        verdict_insert_of_get?_eq_none row hpresent]
    | some present =>
      refine verdict_mergeField_field row htarget.sorted hlogical hpresent ?_
      exact verdict_mergeCondition row key (htarget.of_get? hpresent) hvalue
        (h present hlogical hpresent)

/-- A merge of maps that go together asks for what both ask for. The induction is on the entries
that come in: each is a field or a clause of its own, so it leaves the fields of the others as they
are and only `AND` may grow. -/
theorem verdict_merge {target incoming : Fields} (htarget : (Json.obj target).Ordered)
    (hincoming : (Json.obj incoming).Ordered) (h : Compatible target incoming) :
    verdict row (ofWhere (merge target incoming)) =
      Verdict.and (verdict row (ofWhere target)) (verdict row (ofWhere incoming)) := by
  obtain ⟨hsorted, hvalues⟩ := (Json.ordered_obj incoming).mp hincoming
  clear hincoming
  induction incoming generalizing target with
  | nil =>
    have hempty : verdict row (ofWhere []) = some .holds := verdict_all_nil row
    rw [merge_nil, hempty, Verdict.and_holds]
  | cons entry rest ih =>
    obtain ⟨key, value⟩ := entry
    obtain ⟨hhead, htail⟩ := List.pairwise_cons.mp hsorted
    obtain ⟨hvalue, hrest⟩ := List.forall_mem_cons.mp hvalues
    have hkey : ∀ present, ¬ Logical key → target.get? key = some present →
        GoTogether present value := fun present hlogical hpresent =>
      h key present value hlogical hpresent (by simp [Entries.get?])
    have hlater : Compatible (mergeField target key value) rest := by
      intro field present later hlogical hpresent hget
      have hne : field ≠ key :=
        (String.ne_of_lt (hhead _ (Entries.mem_of_get? hget))).symm
      rw [get?_mergeField_of_ne target value hne (ne_conjunction_of_not_logical hlogical)]
        at hpresent
      exact h field present later hlogical hpresent (by simpa [Entries.get?, hne] using hget)
    rw [merge_cons, ih (ordered_mergeField htarget key hvalue) hlater htail hrest,
      verdict_mergeField row htarget hvalue hkey, verdict_ofWhere_cons,
      Verdict.and_comm (verdict row (ofEntry key value)), Verdict.and_assoc]

end Where

namespace Request

/-- The condition that a request states without a base. -/
def ownCondition (marker : Option String) : Request → Fields
  | .native arguments => arguments.condition.getD []
  | .shorthand options => (options.compile marker).condition.getD []
  | .bare (.obj condition) => condition
  | .bare _ => []

/-- The maps that the condition is taken from have their keys in order. -/
def Ordered : Request → Prop
  | .native arguments => ∀ condition ∈ arguments.condition, (Json.obj condition).Ordered
  | .shorthand options => ∀ filters ∈ options.filters, (Json.obj filters).Ordered
  | .bare value => value.Ordered

theorem Ordered.ownCondition (marker : Option String) {request : Request} (h : request.Ordered) :
    (Json.obj (request.ownCondition marker)).Ordered := by
  have hempty : (Json.obj []).Ordered := .obj .nil (by simp)
  cases request with
  | native arguments =>
    simp only [Request.ownCondition]
    cases hcondition : arguments.condition with
    | none => exact hempty
    | some condition => exact h condition hcondition
  | shorthand options =>
    simp only [Request.ownCondition]
    cases hcondition : (options.compile marker).condition with
    | none => exact hempty
    | some condition => exact options.ordered_compile marker h condition hcondition
  | bare value =>
    cases value with
    | obj condition => exact h
    | _ => exact hempty

/-- A request that is read from an ordered value is ordered. -/
theorem ordered_of_sniff {value : Json} (hvalue : value.Ordered) {request : Request}
    (h : sniff value = .ok request) : request.Ordered := by
  rcases exists_of_sniff h with
    ⟨fields, options, rfl, hoptions, rfl⟩ | ⟨fields, arguments, rfl, harguments, rfl⟩ | rfl
  · exact Shorthand.ordered_filters_of_decode hvalue.sorted hoptions
  · exact Arguments.ordered_condition_of_decode hvalue.sorted harguments
  · exact hvalue

end Request

namespace Service

open Sql Sql.Condition

variable {σ : Type} (service : Service σ)

/-- A base condition comes in after the condition of a shorthand and before that of any other
request. -/
theorem exists_normalize_base (request : Request) (base : Fields) :
    ∃ tree, (service.normalize (some base) request).condition = some tree ∧
      (tree = Where.merge (request.ownCondition service.config.marker) base ∨
        tree = Where.merge base (request.ownCondition service.config.marker)) := by
  cases request with
  | native arguments =>
    refine ⟨Where.merge base (arguments.condition.getD []), ?_, .inr rfl⟩
    cases hcondition : arguments.condition <;> simp [normalize, mergeWhere, hcondition]
  | shorthand options =>
    cases hcondition : (options.compile service.config.marker).condition with
    | none =>
      exact ⟨base, by simp [normalize, mergeWhere, hcondition],
        .inr (by simp [Request.ownCondition, hcondition])⟩
    | some condition =>
      exact ⟨Where.merge condition base, by simp [normalize, mergeWhere, hcondition],
        .inl (by simp [Request.ownCondition, hcondition])⟩
  | bare value =>
    refine ⟨Where.merge base (Request.ownCondition service.config.marker (.bare value)), ?_,
      .inr rfl⟩
    cases value <;> simp [normalize, mergeWhere, Request.ownCondition]

theorem exists_conjoins_normalize (request : Request) (base : Fields) (hrequest : request.Ordered)
    (hbase : (Json.obj base).Ordered)
    (hcompatible : Where.Compatible (request.ownCondition service.config.marker) base) :
    ∃ tree, (service.normalize (some base) request).condition = some tree ∧
      Where.Conjoins tree (request.ownCondition service.config.marker) base := by
  have hown := hrequest.ownCondition service.config.marker
  obtain ⟨tree, htree, hmerge⟩ := service.exists_normalize_base request base
  refine ⟨tree, htree, Where.conjoins_of_verdict fun row => ?_⟩
  rcases hmerge with rfl | rfl
  · exact Where.verdict_merge row hown hbase hcompatible
  · rw [Where.verdict_merge row hbase hown hcompatible.symm, Verdict.and_comm]

/-- Maps whose fields go together are merged into their conjunction, so a request with a base
condition that goes with its own asks for exactly its own condition and the base. Of a request and
a base that have been read no order has to be assumed. -/
theorem compatible_conditions_conjoin :
    (∀ target incoming : Fields, (Json.obj target).Ordered → (Json.obj incoming).Ordered →
      Where.Compatible target incoming →
        Where.Conjoins (Where.merge target incoming) target incoming) ∧
    (∀ (request : Request) (base : Fields), request.Ordered → (Json.obj base).Ordered →
      Where.Compatible (request.ownCondition service.config.marker) base →
        ∃ tree, (service.normalize (some base) request).condition = some tree ∧
          Where.Conjoins tree (request.ownCondition service.config.marker) base) ∧
    ∀ (source baseSource : Doc) (value : Json) (request : Request) (base : Fields),
      source.value = .ok value → Request.sniff value = .ok request →
      baseSource.fields = .ok base →
      Where.Compatible (request.ownCondition service.config.marker) base →
        ∃ tree, (service.normalize (some base) request).condition = some tree ∧
          Where.Conjoins tree (request.ownCondition service.config.marker) base := by
  refine ⟨?_, service.exists_conjoins_normalize, ?_⟩
  · intro target incoming htarget hincoming hcompatible
    refine Where.conjoins_of_verdict fun row => ?_
    exact Where.verdict_merge row htarget hincoming hcompatible
  · intro source baseSource value request base hvalue hsniff hbase
    have hrequest := Request.ordered_of_sniff (Doc.ordered_value hvalue) hsniff
    exact service.exists_conjoins_normalize request base hrequest (Doc.ordered_fields hbase)

/-- Both sides have every kind of clause, an equality meets bounds, and two text operators that
ignore case meet. The request is read from a value. -/
theorem compatible_conditions_conjoin_beside_clauses :
    let own : Fields := [("AND", .obj [("rank", .num (.int 2))]),
      ("NOT", .arr [.obj [("rank", .num (.int 3))]]), ("OR", .arr [.obj [("owner", .null)]]),
      ("age", .num (.int 30)),
      ("name", .obj [("caseInsensitive", .bool true), ("contains", .str "b")])]
    let base : Fields := [("AND", .arr [.obj [("owner", .num (.int 1))]]),
      ("NOT", .obj [("rank", .num (.int 4))]), ("OR", .arr []),
      ("age", .obj [("gte", .num (.int 18)), ("not", .obj [("gt", .num (.int 65))])]),
      ("name", .obj [("caseInsensitive", .bool true), ("startsWith", .str "a")])]
    let request : Request := .native { condition := some own }
    Where.Conjoins (Where.merge own base) own base ∧
      Request.sniff (.obj [("where", .obj own)]) = .ok request ∧
      (∃ tree, ((vacant none).normalize (some base) request).condition = some tree ∧
        Where.Conjoins tree own base) ∧
      (Condition.ofWhere own).isOk = true ∧ (Condition.ofWhere base).isOk = true := by
  intro own base request
  have hown : (Json.obj own).Ordered := by decide
  have hbase : (Json.obj base).Ordered := by decide
  have hcompatible : Where.Compatible own base := by
    intro field present value hfield hpresent hvalue
    have hmem := Entries.mem_of_get? hvalue
    simp only [base, List.mem_cons, Prod.mk.injEq, List.not_mem_nil, or_false] at hmem
    rcases hmem with ⟨rfl, -⟩ | ⟨rfl, -⟩ | ⟨rfl, -⟩ | ⟨rfl, rfl⟩ | ⟨rfl, rfl⟩
    · exact absurd (.inl rfl) hfield
    · exact absurd (.inr (.inr rfl)) hfield
    · exact absurd (.inr (.inl rfl)) hfield
    · obtain rfl : .num (.int 30) = present := by simpa [own, Entries.get?] using hpresent
      exact .plainBeside rfl rfl
    · obtain rfl : .obj [("caseInsensitive", .bool true), ("contains", .str "b")] = present := by
        simpa [own, Entries.get?] using hpresent
      refine .apart ?_ rfl
      intro operator hgiven hincoming
      by_cases hflag : operator = "caseInsensitive"
      · exact hflag
      · obtain rfl : operator = "contains" := by
          simpa [Entries.contains, Entries.get?, hflag] using hgiven
        simp [Entries.contains, Entries.get?] at hincoming
  obtain ⟨hmerge, -, hread⟩ := compatible_conditions_conjoin (vacant none)
  have hsniff : Request.sniff (.obj [("where", .obj own)]) = .ok request := rfl
  exact ⟨hmerge own base hown hbase hcompatible, hsniff,
    hread (.ofJson (.obj [("where", .obj own)])) (.ofJson (.obj base)) _ request base rfl hsniff rfl
      hcompatible, rfl, rfl⟩

end Service

end RecordQuery
