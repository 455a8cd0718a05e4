import RecordQuery.Proofs.Parts

/-!
# The where maps that have a condition

A where map has a condition if it follows a grammar: a logical key holds an object or a list of
objects, any other key a plain value or an object of operators, and each operator an operand of its
own kind. Nothing is accepted by being passed over but what stands under the case flag.
-/

namespace RecordQuery.Where

open Sql

/-- A value that is handed to the database as it is. -/
inductive Scalar : Json → Prop where
  | bool (value : Bool) : Scalar (.bool value)
  | num (value : Number) : Scalar (.num value)
  | str (value : String) : Scalar (.str value)

inductive Plain : Json → Prop where
  | null : Plain .null
  | scalar {value : Json} (scalar : Scalar value) : Plain value

/-- What an operator of a column takes. -/
inductive Operand : (operator : String) → Json → Prop where
  | flag (value : Json) : Operand caseFlag value
  | equality {value : Json} (plain : Plain value) : Operand "equals" value
  | difference {value : Json} (plain : Plain value) : Operand "not" value
  | denial {inner : Fields} (operands : ∀ entry ∈ inner, Operand entry.1 entry.2) :
      Operand "not" (.obj inner)
  | comparison {operator : String} (named : operator ∈ ["gt", "gte", "lt", "lte"]) {value : Json}
      (scalar : Scalar value) : Operand operator value
  | text {operator : String} (named : operator ∈ ["contains", "startsWith", "endsWith"])
      (term : String) : Operand operator (.str term)
  | single {operator : String} (named : operator ∈ ["in", "notIn"]) {value : Json}
      (scalar : Scalar value) : Operand operator value
  | list {operator : String} (named : operator ∈ ["in", "notIn"]) {items : List Json}
      (scalars : ∀ item ∈ items, Scalar item) : Operand operator (.arr items)

/-- What a key of a where map takes. -/
inductive Clause : (key : String) → Json → Prop where
  | object {key : String} (logical : Logical key) {tree : Fields}
      (clauses : ∀ entry ∈ tree, Clause entry.1 entry.2) : Clause key (.obj tree)
  | list {key : String} (logical : Logical key) {items : List Json}
      (objects : ∀ item ∈ items, item.isObj = true)
      (clauses : ∀ tree, .obj tree ∈ items → ∀ entry ∈ tree, Clause entry.1 entry.2) :
      Clause key (.arr items)
  | plain {key : String} (field : ¬ Logical key) {value : Json} (plain : Plain value) :
      Clause key value
  | operators {key : String} (field : ¬ Logical key) {operators : Fields}
      (operands : ∀ entry ∈ operators, Operand entry.1 entry.2) : Clause key (.obj operators)

/-- Every key of the map has what it takes. -/
def Grammatical (tree : Fields) : Prop := ∀ entry ∈ tree, Clause entry.1 entry.2

theorem not_plain_obj (entries : Fields) : ¬ Plain (.obj entries) := by
  rintro (_ | ⟨⟨⟩⟩)

theorem operand_obj_iff {operator : String} (hflag : operator ≠ caseFlag) (inner : Fields) :
    Operand operator (.obj inner) ↔
      operator = "not" ∧ ∀ entry ∈ inner, Operand entry.1 entry.2 := by
  constructor
  · intro h
    cases h with
    | flag => exact absurd rfl hflag
    | denial operands => exact ⟨rfl, operands⟩
    | equality plain | difference plain => exact absurd plain (not_plain_obj inner)
    | comparison named scalar | single named scalar => cases scalar
  · rintro ⟨rfl, operands⟩
    exact .denial operands

theorem isSome_ofJson?_iff (value : Json) :
    (Parameter.ofJson? value).isSome = true ↔ Scalar value := by
  constructor
  · intro h
    cases value with
    | bool value => exact .bool value
    | num value => exact .num value
    | str value => exact .str value
    | null | arr | obj => simp [Parameter.ofJson?] at h
  · rintro (value | value | value)
    · rfl
    · cases value <;> rfl
    · rfl

theorem isSome_listOfJson?_iff (value : Json) :
    (Parameter.listOfJson? value).isSome = true ↔ ∀ item ∈ value.toList, Scalar item := by
  unfold Parameter.listOfJson?
  induction value.toList with
  | nil => simp
  | cons item rest ih =>
    rw [List.forall_mem_cons, ← isSome_ofJson?_iff, ← ih, List.mapM_cons]
    cases Parameter.ofJson? item <;> cases List.mapM Parameter.ofJson? rest <;> simp

theorem Scalar.toList_eq {value : Json} (h : Scalar value) : value.toList = [value] := by
  cases h <;> rfl

theorem operand_membership {operator : String} (h : operator ∈ ["in", "notIn"]) {value : Json}
    (hscalars : ∀ item ∈ value.toList, Scalar item) : Operand operator value := by
  cases value with
  | arr items => exact .list h hscalars
  | _ => exact .single h (hscalars _ (List.mem_singleton.mpr rfl))

theorem plain_iff_scalar {value : Json} (h : value ≠ .null) : Plain value ↔ Scalar value := by
  constructor
  · rintro (_ | hscalar)
    · exact absurd rfl h
    · exact hscalar
  · exact .scalar

theorem isSome_equals?_iff (column : String) (value : Json) :
    (Predicate.equals? column value).isSome = true ↔ Plain value := by
  cases value with
  | null => exact iff_of_true rfl .null
  | _ => simp [Predicate.equals?, isSome_ofJson?_iff, plain_iff_scalar]

theorem isSome_differs?_iff (column : String) (value : Json) :
    (Predicate.differs? column value).isSome = true ↔ Plain value := by
  cases value with
  | null => exact iff_of_true rfl .null
  | _ => simp [Predicate.differs?, isSome_ofJson?_iff, plain_iff_scalar]

theorem isSome_compares?_iff (column : String) (comparison : Comparison) (value : Json) :
    (Predicate.compares? column comparison value).isSome = true ↔ Scalar value := by
  rw [Predicate.compares?, Option.isSome_map, isSome_ofJson?_iff]

theorem isSome_like?_iff (column : String) (anchor : Anchor) (ignoreCase : Bool) (value : Json) :
    (Predicate.like? column anchor ignoreCase value).isSome = true ↔ ∃ term, value = .str term := by
  cases value <;> simp [Predicate.like?]

theorem isSome_membership {operator : String} (h : operator ∈ ["in", "notIn"]) {column : String}
    (ignoreCase : Bool) {value : Json} (hscalars : ∀ item ∈ value.toList, Scalar item) :
    (Predicate.ofOperator? column operator ignoreCase value).isSome = true := by
  have hvalues := (isSome_listOfJson?_iff value).mpr hscalars
  simp only [List.mem_cons, List.not_mem_nil, or_false] at h
  rcases h with rfl | rfl
  · exact Option.isSome_map.trans hvalues
  · exact Option.isSome_map.trans hvalues

/-- An operator has a predicate for the operands of its own kind. -/
theorem isSome_ofOperator?_iff {column operator : String} {ignoreCase : Bool} {operand : Json}
    (hflag : operator ≠ caseFlag) (hplain : operand.isObj = false) :
    (Predicate.ofOperator? column operator ignoreCase operand).isSome = true ↔
      Operand operator operand := by
  constructor
  · intro h
    unfold Predicate.ofOperator? at h
    split at h
    · exact .equality ((isSome_equals?_iff column operand).mp h)
    · exact .difference ((isSome_differs?_iff column operand).mp h)
    · exact .comparison (by decide) ((isSome_compares?_iff column .gt operand).mp h)
    · exact .comparison (by decide) ((isSome_compares?_iff column .gte operand).mp h)
    · exact .comparison (by decide) ((isSome_compares?_iff column .lt operand).mp h)
    · exact .comparison (by decide) ((isSome_compares?_iff column .lte operand).mp h)
    · obtain ⟨term, rfl⟩ := (isSome_like?_iff column .anywhere ignoreCase operand).mp h
      exact .text (by decide) term
    · obtain ⟨term, rfl⟩ := (isSome_like?_iff column .atStart ignoreCase operand).mp h
      exact .text (by decide) term
    · obtain ⟨term, rfl⟩ := (isSome_like?_iff column .atEnd ignoreCase operand).mp h
      exact .text (by decide) term
    · rw [Option.isSome_map, isSome_listOfJson?_iff] at h
      exact operand_membership (by decide) h
    · rw [Option.isSome_map, isSome_listOfJson?_iff] at h
      exact operand_membership (by decide) h
    · simp at h
  · intro h
    cases h with
    | flag => exact absurd rfl hflag
    | equality plain => exact (isSome_equals?_iff column operand).mpr plain
    | difference plain => exact (isSome_differs?_iff column operand).mpr plain
    | denial => simp [Json.isObj] at hplain
    | comparison named scalar =>
      simp only [List.mem_cons, List.not_mem_nil, or_false] at named
      rcases named with rfl | rfl | rfl | rfl
      · exact (isSome_compares?_iff column .gt operand).mpr scalar
      · exact (isSome_compares?_iff column .gte operand).mpr scalar
      · exact (isSome_compares?_iff column .lt operand).mpr scalar
      · exact (isSome_compares?_iff column .lte operand).mpr scalar
    | text named term =>
      simp only [List.mem_cons, List.not_mem_nil, or_false] at named
      rcases named with rfl | rfl | rfl <;> rfl
    | single named scalar =>
      exact isSome_membership named ignoreCase (by simpa [scalar.toList_eq] using scalar)
    | list named scalars => exact isSome_membership named ignoreCase scalars

theorem isOk_ofOperator_of_plain (column operator : String) (ignoreCase : Bool) {operand : Json}
    (hplain : operand.isObj = false) :
    (Condition.ofOperator column ignoreCase operator operand).isOk =
      (Predicate.ofOperator? column operator ignoreCase operand).isSome := by
  cases operand with
  | obj inner => simp [Json.isObj] at hplain
  | _ =>
    simp only [Condition.ofOperator]
    split
    · rename_i htest
      rw [htest]
      rfl
    · rename_i htest
      rw [htest]
      rfl

theorem isOk_ofOperator_of_obj (column operator : String) (ignoreCase : Bool) (inner : Fields) :
    (Condition.ofOperator column ignoreCase operator (.obj inner)).isOk = true ↔
      operator = "not" ∧ (Condition.ofOperators column
        (ignoreCase || Condition.ignoresCase inner) inner).isOk = true := by
  rw [Condition.ofOperator]
  split
  · rename_i hnot
    cases Condition.ofOperators column (ignoreCase || Condition.ignoresCase inner) inner <;>
      simp [hnot, Except.isOk, Except.toBool]
  · rename_i hnot
    simp [hnot, Except.isOk, Except.toBool]

mutual

/-- An operator object has parts if each of its operators has an operand of its kind. -/
theorem isOk_ofOperators_iff (column : String) : ∀ (ignoreCase : Bool) (operators : Fields),
    (Condition.ofOperators column ignoreCase operators).isOk = true ↔
      ∀ entry ∈ operators, Operand entry.1 entry.2
  | _, [] => by simp [Condition.ofOperators, Except.isOk, Except.toBool]
  | ignoreCase, (operator, operand) :: rest => by
    rw [List.forall_mem_cons, ← isOk_ofOperators_iff column ignoreCase rest]
    by_cases hflag : operator = caseFlag
    · subst hflag
      rw [Condition.ofOperators, if_pos rfl]
      exact (and_iff_right (.flag operand)).symm
    · rw [← isOk_ofOperator_iff column hflag ignoreCase operand, Condition.ofOperators,
        if_neg hflag, isOk_cons, Bool.and_eq_true]

theorem isOk_ofOperator_iff (column : String) {operator : String} (hflag : operator ≠ caseFlag) :
    ∀ (ignoreCase : Bool) (operand : Json),
    (Condition.ofOperator column ignoreCase operator operand).isOk = true ↔
      Operand operator operand
  | ignoreCase, .obj inner => by
    rw [isOk_ofOperator_of_obj, isOk_ofOperators_iff column _ inner, operand_obj_iff hflag]
  | ignoreCase, .null | ignoreCase, .bool _ | ignoreCase, .num _ | ignoreCase, .str _
  | ignoreCase, .arr _ => by
    rw [isOk_ofOperator_of_plain column operator ignoreCase rfl]
    exact isSome_ofOperator?_iff hflag rfl

end

theorem isOk_ofField_of_plain (column : String) {value : Json} (hplain : value.isObj = false) :
    (Condition.ofField column value).isOk = (Predicate.equals? column value).isSome := by
  cases value with
  | obj operators => simp [Json.isObj] at hplain
  | _ =>
    simp only [Condition.ofField]
    split
    · rename_i htest
      rw [htest]
      rfl
    · rename_i htest
      rw [htest]
      rfl

/-- A field has a condition if it has what it takes. -/
theorem isOk_ofField_iff {column : String} (hfield : ¬ Logical column) (value : Json) :
    (Condition.ofField column value).isOk = true ↔ Clause column value := by
  cases hplain : value.isObj with
  | true =>
    obtain ⟨operators, rfl⟩ : ∃ operators, value = .obj operators := by
      cases value <;> simp [Json.isObj] at hplain ⊢
    rw [Condition.ofField, bind_pure_comp, isOk_map, isOk_ofOperators_iff]
    constructor
    · exact .operators hfield
    · intro h
      cases h with
      | object logical => exact absurd logical hfield
      | plain field plain => exact absurd plain (not_plain_obj operators)
      | operators field operands => exact operands
  | false =>
    rw [isOk_ofField_of_plain column hplain, isSome_equals?_iff]
    constructor
    · exact .plain hfield
    · intro h
      cases h with
      | object | operators => simp [Json.isObj] at hplain
      | list logical => exact absurd logical hfield
      | plain field plain => exact plain

theorem clause_obj_iff {key : String} (h : Logical key) (tree : Fields) :
    Clause key (.obj tree) ↔ Grammatical tree := by
  constructor
  · intro hclause
    cases hclause with
    | object logical clauses => exact clauses
    | plain field | operators field => exact absurd h field
  · exact .object h

theorem clause_arr_iff {key : String} (h : Logical key) (items : List Json) :
    Clause key (.arr items) ↔
      (∀ item ∈ items, item.isObj = true) ∧ ∀ tree, .obj tree ∈ items → Grammatical tree := by
  constructor
  · intro hclause
    cases hclause with
    | list logical objects clauses => exact ⟨objects, clauses⟩
    | plain field => exact absurd h field
  · rintro ⟨hobjects, hclauses⟩
    exact .list h hobjects hclauses

theorem grammatical_cons (key : String) (value : Json) (rest : Fields) :
    Grammatical ((key, value) :: rest) ↔ Clause key value ∧ Grammatical rest :=
  List.forall_mem_cons

mutual

/-- The entries of a where map have parts if each key has what it takes. -/
theorem isOk_ofEntries_iff : ∀ entries : Fields,
    (Condition.ofEntries entries).isOk = true ↔ Grammatical entries
  | [] => iff_of_true (by simp [Condition.ofEntries, Except.isOk, Except.toBool])
      (by simp [Grammatical])
  | (key, value) :: rest => by
    rw [grammatical_cons, ← isOk_ofEntries_iff rest, Condition.ofEntries_cons, isOk_cons,
      Bool.and_eq_true]
    by_cases hkey : Logical key
    · rw [Condition.ofEntry_of_logical hkey, isOk_map, isOk_ofClauses_iff hkey value]
    · rw [Condition.ofEntry_of_not_logical hkey, isOk_ofField_iff hkey value]

theorem isOk_ofClauses_iff {key : String} (h : Logical key) : ∀ value : Json,
    (Condition.ofClauses key value).isOk = true ↔ Clause key value
  | .obj entries => by
    rw [clause_obj_iff h, ← isOk_ofEntries_iff entries, Condition.ofClauses, bind_pure_comp,
      isOk_map]
  | .arr items => by
    rw [clause_arr_iff h, ← isOk_ofItems_iff items, ← List.all_eq_true, Condition.ofClauses]
    split
    · rename_i hitems
      rw [and_iff_right hitems]
    · rename_i hitems
      simp [hitems, Except.isOk, Except.toBool]
  | .null | .bool _ | .num _ | .str _ => by
    constructor
    · simp [Condition.ofClauses, Except.isOk, Except.toBool]
    · intro hclause
      cases hclause with
      | plain field => exact absurd h field

/-- The objects of a list have clauses if they are where maps that have parts. -/
theorem isOk_ofItems_iff : ∀ items : List Json,
    (Condition.ofItems items).isOk = true ↔ ∀ tree, .obj tree ∈ items → Grammatical tree
  | [] => iff_of_true (by simp [Condition.ofItems, Except.isOk, Except.toBool]) (by simp)
  | .obj entries :: rest => by
    have hcons : Condition.ofItems (.obj entries :: rest) =
        (do return (← Condition.all <$> Condition.ofEntries entries) ::
          (← Condition.ofItems rest)) := by
      simp [Condition.ofItems]
    rw [hcons, isOk_cons, isOk_map, Bool.and_eq_true, isOk_ofEntries_iff entries,
      isOk_ofItems_iff rest]
    simp [or_imp, forall_and]
  | .null :: rest | .bool _ :: rest | .num _ :: rest | .str _ :: rest | .arr _ :: rest => by
    simpa [Condition.ofItems] using isOk_ofItems_iff rest

end

/-- A where map has a condition exactly if it is grammatical. -/
theorem condition_iff_grammatical (tree : Fields) :
    (Condition.ofWhere tree).isOk = true ↔ Grammatical tree := by
  rw [Condition.ofWhere, isOk_map, isOk_ofEntries_iff]

instance : DecidablePred Grammatical := fun tree =>
  decidable_of_iff ((Condition.ofEntries tree).isOk = true) (isOk_ofEntries_iff tree)

/-- A condition on related records is not passed over below a denied clause. -/
example : ¬ Grammatical [("NOT", .arr [.obj [("posts", .obj [("some", .obj [])])]])] := by
  decide

end RecordQuery.Where
