import RecordQuery.Proofs.Row
import RecordQuery.Proofs.Parts

/-!
# The meaning of a where map

A where map is read as a statement about a row by going through the tree itself: what a key asks for
is said for each key, without the condition that is built from it. The condition has that meaning
whenever there is one. An operand that no condition takes has no meaning and is left unknown.
-/

namespace RecordQuery.Where

open Sql

variable {db : Database} (row : db.Row)

/-- How a column compares with a plain operand. -/
def compared (column : String) (comparison : Comparison) (operand : Json) : Truth :=
  match Parameter.ofJson? operand with
  | some value => row.compares column comparison value
  | none => .unknown

/-- Equality with a plain value. Only null equals null. -/
def equal (column : String) : Json → Truth
  | .null => row.isNull column
  | operand => compared row column .eq operand

def different (column : String) : Json → Truth
  | .null => (row.isNull column).not
  | operand => compared row column .ne operand

/-- Whether a column has a text in some place, or its upper case has the upper case of the text. -/
def matched (column : String) (anchor : Anchor) (ignoreCase : Bool) : Json → Truth
  | .str term =>
    let pattern := anchor.pattern term.toList
    row.matchesPattern column ignoreCase
      (String.ofList (if ignoreCase then Text.upper pattern else pattern))
  | _ => .unknown

/-- Whether a column equals one of the operands, a plain operand being the only one. -/
def among (column : String) (operand : Json) : Truth :=
  match Parameter.listOfJson? operand with
  | some values => row.isAmong column values
  | none => .unknown

/-- What an operator says of a column when its operand is not an object. -/
def plainOperator (column operator : String) (ignoreCase : Bool) (operand : Json) : Truth :=
  match operator with
  | "equals" => equal row column operand
  | "not" => different row column operand
  | "gt" => compared row column .gt operand
  | "gte" => compared row column .gte operand
  | "lt" => compared row column .lt operand
  | "lte" => compared row column .lte operand
  | "contains" => matched row column .anywhere ignoreCase operand
  | "startsWith" => matched row column .atStart ignoreCase operand
  | "endsWith" => matched row column .atEnd ignoreCase operand
  | "in" => among row column operand
  | "notIn" => (among row column operand).not
  | _ => .unknown

mutual

/-- The operators of an object hold together. -/
def operatorsTruth (column : String) (ignoreCase : Bool) : List (String × Json) → Truth
  | [] => .holds
  | (operator, operand) :: rest =>
    if operator = caseFlag then operatorsTruth column ignoreCase rest
    else (operatorTruth column operator ignoreCase operand).and
      (operatorsTruth column ignoreCase rest)

/-- An object below `not` is denied as a whole. It ignores case if it says so or stands in an object
that does. -/
def operatorTruth (column operator : String) (ignoreCase : Bool) : Json → Truth
  | .obj inner =>
    if operator = "not" then
      (operatorsTruth column (ignoreCase || Condition.ignoresCase inner) inner).not
    else .unknown
  | operand => plainOperator row column operator ignoreCase operand

end

def fieldTruth (column : String) : Json → Truth
  | .obj operators => operatorsTruth row column (Condition.ignoresCase operators) operators
  | value => equal row column value

/-- A list below `NOT` denies each of its clauses, an object there is denied as a whole. -/
def denied : Json → (clauses : List Truth) → Truth
  | .arr _, clauses => .all (clauses.map .not)
  | _, clauses => (Truth.all clauses).not

mutual

/-- All entries of a where map hold together. -/
def truth : List (String × Json) → Truth
  | [] => .holds
  | (key, value) :: rest =>
    (if key = conjunction then .all (clauseTruths value)
      else if key = disjunction then .any (clauseTruths value)
      else if key = negation then denied value (clauseTruths value)
      else fieldTruth row key value).and (truth rest)

/-- The truth values of an object or of each object of a list. -/
def clauseTruths : Json → List Truth
  | .obj entries => [truth entries]
  | .arr items => itemTruths items
  | _ => [.unknown]

def itemTruths : List Json → List Truth
  | [] => []
  | .obj entries :: rest => truth entries :: itemTruths rest
  | _ :: rest => .unknown :: itemTruths rest

end

theorem truth_equals? {column : String} {operand : Json} {test : Predicate}
    (h : Predicate.equals? column operand = some test) :
    test.truth row = equal row column operand := by
  cases operand with
  | null =>
    obtain rfl : Predicate.isNull column = test := by simpa [Predicate.equals?] using h
    rfl
  | _ =>
    simp only [Predicate.equals?, Option.map_eq_some_iff] at h
    obtain ⟨value, hvalue, rfl⟩ := h
    simp [Predicate.truth, equal, compared, hvalue]

theorem truth_differs? {column : String} {operand : Json} {test : Predicate}
    (h : Predicate.differs? column operand = some test) :
    test.truth row = different row column operand := by
  cases operand with
  | null =>
    obtain rfl : Predicate.isNotNull column = test := by simpa [Predicate.differs?] using h
    rfl
  | _ =>
    simp only [Predicate.differs?, Option.map_eq_some_iff] at h
    obtain ⟨value, hvalue, rfl⟩ := h
    simp [Predicate.truth, different, compared, hvalue]

theorem truth_compares? {column : String} {comparison : Comparison} {operand : Json}
    {test : Predicate} (h : Predicate.compares? column comparison operand = some test) :
    test.truth row = compared row column comparison operand := by
  simp only [Predicate.compares?, Option.map_eq_some_iff] at h
  obtain ⟨value, hvalue, rfl⟩ := h
  simp [Predicate.truth, compared, hvalue]

theorem truth_like? {column : String} {anchor : Anchor} {ignoreCase : Bool} {operand : Json}
    {test : Predicate} (h : Predicate.like? column anchor ignoreCase operand = some test) :
    test.truth row = matched row column anchor ignoreCase operand := by
  cases operand with
  | str term =>
    simp only [Predicate.like?, Option.some.injEq] at h
    subst h
    rfl
  | _ => simp [Predicate.like?] at h

theorem truth_ofOperator? {column operator : String} {ignoreCase : Bool} {operand : Json}
    {test : Predicate}
    (h : Predicate.ofOperator? column operator ignoreCase operand = some test) :
    test.truth row = plainOperator row column operator ignoreCase operand := by
  unfold Predicate.ofOperator? at h
  unfold plainOperator
  split at h
  · exact truth_equals? row h
  · exact truth_differs? row h
  · exact truth_compares? row h
  · exact truth_compares? row h
  · exact truth_compares? row h
  · exact truth_compares? row h
  · exact truth_like? row h
  · exact truth_like? row h
  · exact truth_like? row h
  · obtain ⟨values, hvalues, rfl⟩ := Option.map_eq_some_iff.mp h
    simp [Predicate.truth, among, hvalues]
  · obtain ⟨values, hvalues, rfl⟩ := Option.map_eq_some_iff.mp h
    simp [Predicate.truth, among, hvalues]
  · simp at h

mutual

theorem truth_ofOperators (column : String) : ∀ (ignoreCase : Bool) (operators : Fields)
    {parts : List Condition}, Condition.ofOperators column ignoreCase operators = .ok parts →
    Truth.all (parts.map (Condition.truth row)) = operatorsTruth row column ignoreCase operators
  | _, [], parts, h => by
    obtain rfl : [] = parts := by simpa [Condition.ofOperators] using h
    simp [operatorsTruth]
  | ignoreCase, (operator, operand) :: rest, parts, h => by
    by_cases hflag : operator = caseFlag
    · rw [Condition.ofOperators, if_pos hflag] at h
      simpa [operatorsTruth, hflag] using truth_ofOperators column ignoreCase rest h
    · obtain ⟨part, more, hpart, hmore, rfl⟩ :=
        (Condition.ofOperators_cons_eq_ok column ignoreCase hflag operand rest parts).mp h
      have htruth := truth_ofOperator column operator ignoreCase operand hpart
      have hrest := truth_ofOperators column ignoreCase rest hmore
      simp [operatorsTruth, hflag, htruth, hrest]

theorem truth_ofOperator (column operator : String) : ∀ (ignoreCase : Bool) (operand : Json)
    {part : Condition}, Condition.ofOperator column ignoreCase operator operand = .ok part →
    part.truth row = operatorTruth row column operator ignoreCase operand
  | ignoreCase, .obj inner, part, h => by
    simp only [Condition.ofOperator] at h
    split at h
    · rename_i hnot
      split at h
      · rename_i parts hparts
        obtain rfl := Except.ok.inj h
        have hinner := truth_ofOperators column _ inner hparts
        simp [operatorTruth, hnot, hinner]
      · simp at h
    · simp at h
  | ignoreCase, .null, part, h | ignoreCase, .bool _, part, h | ignoreCase, .num _, part, h
  | ignoreCase, .str _, part, h | ignoreCase, .arr _, part, h => by
    obtain ⟨test, htest, rfl⟩ := Condition.ofOperator_plain rfl h
    simpa [Condition.truth, operatorTruth] using truth_ofOperator? row htest

end

theorem truth_ofField {column : String} {value : Json} {part : Condition}
    (h : Condition.ofField column value = .ok part) :
    part.truth row = fieldTruth row column value := by
  cases value with
  | obj operators =>
    simp only [Condition.ofField, bind_eq_ok, pure_eq_ok] at h
    obtain ⟨parts, hparts, rfl⟩ := h
    simpa [fieldTruth] using truth_ofOperators row column _ operators hparts
  | _ =>
    simp only [Condition.ofField] at h
    split at h
    · rename_i test htest
      obtain rfl := Except.ok.inj h
      simpa [Condition.truth, fieldTruth] using truth_equals? row htest
    · simp at h

theorem truth_negateClauses (value : Json) (clauses : List Condition) :
    (Condition.negateClauses value clauses).truth row =
      denied value (clauses.map (Condition.truth row)) := by
  cases value <;> simp [Condition.negateClauses, denied, Function.comp_def]

mutual

theorem truth_ofEntries : ∀ (entries : Fields) {parts : List Condition},
    Condition.ofEntries entries = .ok parts →
    Truth.all (parts.map (Condition.truth row)) = truth row entries
  | [], parts, h => by
    obtain rfl : [] = parts := by simpa [Condition.ofEntries] using h
    simp [truth]
  | (key, value) :: rest, parts, h => by
    obtain ⟨part, more, hpart, hmore, rfl⟩ :=
      (Condition.ofEntries_cons_eq_ok key value rest parts).mp h
    have hrest := truth_ofEntries rest hmore
    simp only [List.map_cons, Truth.all_cons, hrest, truth]
    congr 1
    unfold Condition.ofEntry at hpart
    split_ifs at hpart ⊢ with hand hor hnot
    · obtain ⟨clauses, hclauses, rfl⟩ := (map_eq_ok _ _ _).mp hpart
      rw [Condition.truth_all, truths_ofClauses key value hclauses]
    · obtain ⟨clauses, hclauses, rfl⟩ := (map_eq_ok _ _ _).mp hpart
      rw [Condition.truth_any, truths_ofClauses key value hclauses]
    · obtain ⟨clauses, hclauses, rfl⟩ := (map_eq_ok _ _ _).mp hpart
      rw [truth_negateClauses, truths_ofClauses key value hclauses]
    · exact truth_ofField row hpart

theorem truths_ofClauses (key : String) : ∀ (value : Json) {clauses : List Condition},
    Condition.ofClauses key value = .ok clauses →
    clauses.map (Condition.truth row) = clauseTruths row value
  | .obj entries, clauses, h => by
    simp only [Condition.ofClauses, bind_eq_ok, pure_eq_ok] at h
    obtain ⟨parts, hparts, rfl⟩ := h
    simp [clauseTruths, truth_ofEntries entries hparts]
  | .arr items, clauses, h => by
    simp only [Condition.ofClauses] at h
    split at h
    · rename_i hitems
      simpa [clauseTruths] using truths_ofItems items hitems h
    · simp at h
  | .null, _, h | .bool _, _, h | .num _, _, h | .str _, _, h => by
    simp [Condition.ofClauses] at h

theorem truths_ofItems : ∀ (items : List Json) {clauses : List Condition},
    items.all (·.isObj) = true → Condition.ofItems items = .ok clauses →
    clauses.map (Condition.truth row) = itemTruths row items
  | [], clauses, _, h => by
    obtain rfl : [] = clauses := by simpa [Condition.ofItems] using h
    simp [itemTruths]
  | .obj entries :: rest, clauses, hitems, h => by
    obtain ⟨parts, more, hparts, hmore, rfl⟩ :=
      (Condition.ofItems_cons_eq_ok entries rest clauses).mp h
    have hrest := truths_ofItems rest (by simpa [Json.isObj] using hitems) hmore
    simp [itemTruths, truth_ofEntries entries hparts, hrest]
  | .null :: _, _, hitems, _ | .bool _ :: _, _, hitems, _ | .num _ :: _, _, hitems, _
  | .str _ :: _, _, hitems, _ | .arr _ :: _, _, hitems, _ => by
    simp [Json.isObj] at hitems

end

/-- A condition has the truth value of the where map that it was made from. -/
theorem truth_ofWhere {tree : Fields} {condition : Condition}
    (h : Condition.ofWhere tree = .ok condition) : condition.truth row = truth row tree := by
  obtain ⟨parts, hparts, rfl⟩ := (map_eq_ok _ _ _).mp h
  rw [Condition.truth_all, truth_ofEntries row tree hparts]

/-- A list of denied clauses, one of them with a denial of its own, beside an empty conjunction. -/
theorem truth_ofWhere_denied_list :
    let tree : Fields :=
      [("AND", .arr []),
        ("NOT", .arr [.obj [("age", .obj [("lt", .num (.int 18))])],
          .obj [("OR", .arr []), ("age", .obj [("not", .obj [("lte", .num (.int 65))])])]])]
    let row : Database.integers.Row :=
      fun column => if column = "age" then some (30 : Int) else none
    ∃ condition, Condition.ofWhere tree = .ok condition ∧
      condition.truth row = truth row tree ∧ truth row tree = .holds :=
  ⟨_, rfl, truth_ofWhere _ rfl, by decide⟩

end RecordQuery.Where
