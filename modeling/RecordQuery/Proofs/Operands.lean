import RecordQuery.Proofs.Parts
import RecordQuery.Sql.Statement

/-!
# Operands and the parameters made of them

Every parameter of a condition has a source: an operand, told by its place in the where map and by
the use that is made of it, or a fixed value. The sources of a where map are listed by going through
the map itself. The parameters of its condition are what these sources give, one for each in their
order.
-/

namespace RecordQuery

/-- The value at a place, which is the positions of the items and entries that lead to it. -/
def Json.at? : List Nat → Json → Option Json
  | [], value => some value
  | position :: rest, .arr items => items[position]?.bind (at? rest)
  | position :: rest, .obj entries => entries[position]?.bind fun entry => at? rest entry.2
  | _ :: _, _ => none

namespace Sql

/-- What a parameter is made of: the operand as it is, or the pattern for a term. -/
inductive Use where
  | value
  | pattern (anchor : Anchor) (ignoreCase : Bool)
  deriving DecidableEq, Repr

def Use.parameter? : Use → Json → Option Parameter
  | value, operand => Parameter.ofJson? operand
  | pattern anchor ignoreCase, .str term =>
    let pattern := anchor.pattern term.toList
    some (.text (String.ofList (if ignoreCase then Text.upper pattern else pattern)))
  | pattern .., _ => none

/-- Where a parameter comes from. -/
inductive Source where
  | fixed (parameter : Parameter)
  | operand (place : List Nat) (use : Use)
  deriving DecidableEq, Repr

namespace Source

/-- The parameter that a source gives for a tree. -/
def read? (tree : Json) : Source → Option Parameter
  | fixed parameter => some parameter
  | operand place use => (tree.at? place).bind use.parameter?

/-- The source as seen from a tree that has the one it is in at a position. -/
def below (position : Nat) : Source → Source
  | fixed parameter => fixed parameter
  | operand place use => operand (position :: place) use

theorem read?_below_obj {entries : Fields} {position : Nat} {key : String} {value : Json}
    (h : entries[position]? = some (key, value)) (source : Source) :
    (source.below position).read? (.obj entries) = source.read? value := by
  cases source <;> simp [below, read?, Json.at?, h]

theorem read?_below_arr {items : List Json} {position : Nat} {value : Json}
    (h : items[position]? = some value) (source : Source) :
    (source.below position).read? (.arr items) = source.read? value := by
  cases source <;> simp [below, read?, Json.at?, h]

end Source

end Sql

namespace Where

open Sql

def equalitySources : Json → List Source
  | .null => []
  | _ => [.operand [] .value]

/-- A membership test without operands compares one with a constant. -/
def membershipSources (other : Nat) : Json → List Source
  | .arr [] => [.fixed (.constant 1), .fixed (.constant other)]
  | .arr items => (List.range items.length).map fun position => .operand [position] .value
  | _ => [.operand [] .value]

def plainSources (operator : String) (ignoreCase : Bool) (operand : Json) : List Source :=
  match operator with
  | "equals" | "not" => equalitySources operand
  | "contains" => [.operand [] (.pattern .anywhere ignoreCase)]
  | "startsWith" => [.operand [] (.pattern .atStart ignoreCase)]
  | "endsWith" => [.operand [] (.pattern .atEnd ignoreCase)]
  | "in" => membershipSources 2 operand
  | "notIn" => membershipSources 1 operand
  | _ => [.operand [] .value]

mutual

/-- The sources of the operators from a position on. -/
def operatorsSources (ignoreCase : Bool) : (position : Nat) → List (String × Json) → List Source
  | _, [] => []
  | position, (operator, operand) :: rest =>
    if operator = caseFlag then operatorsSources ignoreCase (position + 1) rest
    else (operatorSources operator ignoreCase operand).map (.below position)
      ++ operatorsSources ignoreCase (position + 1) rest

def operatorSources (operator : String) (ignoreCase : Bool) : Json → List Source
  | .obj inner => operatorsSources (ignoreCase || Condition.ignoresCase inner) 0 inner
  | operand => plainSources operator ignoreCase operand

end

def fieldSources : Json → List Source
  | .obj operators => operatorsSources (Condition.ignoresCase operators) 0 operators
  | value => equalitySources value

mutual

/-- The sources of the entries of a where map from a position on. -/
def entriesSources : (position : Nat) → List (String × Json) → List Source
  | _, [] => []
  | position, (key, value) :: rest =>
    (if Logical key then clausesSources value else fieldSources value).map (.below position)
      ++ entriesSources (position + 1) rest

def clausesSources : Json → List Source
  | .obj entries => entriesSources 0 entries
  | .arr items => itemsSources 0 items
  | _ => []

def itemsSources : (position : Nat) → List Json → List Source
  | _, [] => []
  | position, .obj entries :: rest =>
    (entriesSources 0 entries).map (.below position) ++ itemsSources (position + 1) rest
  | position, _ :: rest => itemsSources (position + 1) rest

end

/-- The sources of the parameters of a where map, in the order of the parameters. -/
def sources (tree : Fields) : List Source := entriesSources 0 tree

end Where

namespace Sql

namespace Piece

@[simp] theorem parameters_nil : parameters [] = [] := rfl

@[simp] theorem parameters_text (value : String) (rest : List Piece) :
    parameters (.text value :: rest) = parameters rest := rfl

@[simp] theorem parameters_parameter (value : Parameter) (rest : List Piece) :
    parameters (.parameter value :: rest) = value :: parameters rest := rfl

@[simp] theorem parameters_append (front back : List Piece) :
    parameters (front ++ back) = parameters front ++ parameters back :=
  List.filterMap_append

theorem parameters_intersperse (separator : String) (values : List Parameter) :
    parameters ((values.map .parameter).intersperse (.text separator)) = values := by
  induction values with
  | nil => rfl
  | cons first rest ih =>
    cases rest with
    | nil => rfl
    | cons second more => simpa using ih

@[simp] theorem parameters_parenthesised (needed : Bool) (pieces : List Piece) :
    parameters (Expression.parenthesised needed pieces) = parameters pieces := by
  cases needed <;> simp [Expression.parenthesised]

end Piece

namespace Predicate

@[simp] theorem parameters_tuple (values : List Parameter) :
    Piece.parameters (tuple values) = values := by
  simp [tuple, Piece.parameters_intersperse]

theorem parameters_of_map (make : Parameter → Predicate)
    (hmake : ∀ value, Piece.parameters (make value).pieces = [value]) {operand : Json}
    {test : Predicate} (h : (Parameter.ofJson? operand).map make = some test) :
    (Piece.parameters test.pieces).map some = [Source.read? operand (.operand [] .value)] := by
  obtain ⟨value, hvalue, rfl⟩ := Option.map_eq_some_iff.mp h
  simp [hmake, Source.read?, Json.at?, Use.parameter?, hvalue]

theorem parameters_compares? {column : String} {comparison : Comparison} {operand : Json}
    {test : Predicate} (h : compares? column comparison operand = some test) :
    (Piece.parameters test.pieces).map some = [Source.read? operand (.operand [] .value)] :=
  parameters_of_map (compare column comparison) (fun _ => rfl) h

theorem parameters_equals? {column : String} {operand : Json} {test : Predicate}
    (h : equals? column operand = some test) :
    (Piece.parameters test.pieces).map some =
      (Where.equalitySources operand).map (Source.read? operand) := by
  cases operand with
  | null =>
    obtain rfl : isNull column = test := by simpa [equals?] using h
    rfl
  | _ => exact parameters_of_map (compare column .eq) (fun _ => rfl) h

theorem parameters_differs? {column : String} {operand : Json} {test : Predicate}
    (h : differs? column operand = some test) :
    (Piece.parameters test.pieces).map some =
      (Where.equalitySources operand).map (Source.read? operand) := by
  cases operand with
  | null =>
    obtain rfl : isNotNull column = test := by simpa [differs?] using h
    rfl
  | _ => exact parameters_of_map (compare column .ne) (fun _ => rfl) h

theorem parameters_like? {column : String} {anchor : Anchor} {ignoreCase : Bool} {operand : Json}
    {test : Predicate} (h : like? column anchor ignoreCase operand = some test) :
    (Piece.parameters test.pieces).map some =
      [Source.read? operand (.operand [] (.pattern anchor ignoreCase))] := by
  cases operand with
  | str term =>
    simp only [like?, Option.some.injEq] at h
    subst h
    rfl
  | _ => simp [like?] at h

theorem map_of_mapM {items : List Json} {values : List Parameter}
    (h : items.mapM Parameter.ofJson? = some values) :
    values.map some = items.map Parameter.ofJson? := by
  induction items generalizing values with
  | nil =>
    obtain rfl : [] = values := by simpa using h
    rfl
  | cons item rest ih =>
    simp only [List.mapM_cons, Option.pure_def, Option.bind_eq_bind, Option.bind_eq_some_iff,
      Option.some.injEq] at h
    obtain ⟨value, hvalue, more, hmore, rfl⟩ := h
    rw [List.map_cons, List.map_cons, hvalue, ih hmore]

/-- The items of a list, each read at its own position. -/
theorem read?_items (items : List Json) :
    (List.range items.length).map (fun position =>
      Source.read? (.arr items) (.operand [position] .value)) =
      items.map Parameter.ofJson? := by
  apply List.ext_getElem
  · simp
  · intro position hleft hright
    have hposition : position < items.length := by simpa using hleft
    simp [Source.read?, Json.at?, Use.parameter?, hposition]

theorem parameters_membership {make : List Parameter → Predicate} {other : Nat}
    (hempty : Piece.parameters (make []).pieces = [.constant 1, .constant other])
    (hmake : ∀ first rest, Piece.parameters (make (first :: rest)).pieces = first :: rest)
    {operand : Json} {test : Predicate}
    (h : (Parameter.listOfJson? operand).map make = some test) :
    (Piece.parameters test.pieces).map some =
      (Where.membershipSources other operand).map (Source.read? operand) := by
  obtain ⟨values, hvalues, rfl⟩ := Option.map_eq_some_iff.mp h
  cases operand with
  | arr items =>
    have hall : values.map some = items.map Parameter.ofJson? := map_of_mapM hvalues
    cases items with
    | nil =>
      obtain rfl : values = [] := by simpa using hall
      rw [hempty]
      rfl
    | cons item rest =>
      cases values with
      | nil => simp at hall
      | cons first more =>
        rw [hmake, hall, ← read?_items]
        simp only [Where.membershipSources, List.map_map, Function.comp_def]
  | _ =>
    have hone := map_of_mapM hvalues
    simp only [Json.toList, List.map_cons, List.map_nil] at hone
    obtain ⟨value, rfl⟩ : ∃ value, values = [value] := by
      rw [← List.length_eq_one_iff, ← List.length_map some, hone]
      rfl
    rw [hmake, hone]
    rfl

theorem parameters_ofOperator? {column operator : String} {ignoreCase : Bool} {operand : Json}
    {test : Predicate} (h : ofOperator? column operator ignoreCase operand = some test) :
    (Piece.parameters test.pieces).map some =
      (Where.plainSources operator ignoreCase operand).map (Source.read? operand) := by
  unfold ofOperator? at h
  split at h
  · exact parameters_equals? h
  · exact parameters_differs? h
  · exact parameters_compares? h
  · exact parameters_compares? h
  · exact parameters_compares? h
  · exact parameters_compares? h
  · exact parameters_like? h
  · exact parameters_like? h
  · exact parameters_like? h
  · exact parameters_membership rfl (fun _ _ => by simp [pieces]) h
  · exact parameters_membership rfl (fun _ _ => by simp [pieces]) h
  · simp at h

end Predicate

namespace Condition

mutual

/-- The parameters of a condition, from left to right. -/
def parameters : Condition → List Parameter
  | .predicate test => Piece.parameters test.pieces
  | .group _ _ parts => partsParameters parts

def partsParameters : List Condition → List Parameter
  | [] => []
  | part :: rest => parameters part ++ partsParameters rest

end

mutual

theorem parameters_toExpression : ∀ condition : Condition,
    Piece.parameters condition.toExpression.pieces = condition.parameters
  | .predicate test => by simp [toExpression, Expression.pieces, parameters]
  | .group connective negated parts => by
    have hjoined := parameters_joinParts connective parts
    cases negated <;> simp [toExpression, Expression.pieces, parameters, hjoined]

theorem parameters_joinParts (connective : Connective) : ∀ parts : List Condition,
    Piece.parameters (joinParts connective parts).pieces = partsParameters parts
  | [] => by simp [joinParts, Expression.pieces, partsParameters]
  | first :: rest => by
    rw [joinParts, parameters_joinOnto, parameters_toExpression, partsParameters]

theorem parameters_joinOnto (connective : Connective) : ∀ (left : Expression)
    (parts : List Condition), Piece.parameters (joinOnto connective left parts).pieces =
      Piece.parameters left.pieces ++ partsParameters parts
  | left, [] => by simp [joinOnto, partsParameters]
  | left, next :: rest => by
    have hnext := parameters_toExpression next
    rw [joinOnto, parameters_joinOnto]
    simp [Expression.pieces, partsParameters, hnext]

end

@[simp] theorem parameters_collapse (condition : Condition) :
    condition.collapse.parameters = condition.parameters := by
  unfold collapse
  split
  · simp [parameters, partsParameters]
  · rfl

@[simp] theorem partsParameters_append (parts more : List Condition) :
    partsParameters (parts ++ more) = partsParameters parts ++ partsParameters more := by
  induction parts with
  | nil => rfl
  | cons part rest ih => simp [partsParameters, ih]

theorem partsParameters_map_collapse (parts : List Condition) :
    partsParameters (parts.map collapse) = partsParameters parts := by
  induction parts with
  | nil => rfl
  | cons part rest ih => simp [partsParameters, ih]

@[simp] theorem parameters_all (parts : List Condition) :
    (all parts).parameters = partsParameters parts :=
  partsParameters_map_collapse parts

@[simp] theorem parameters_any (parts : List Condition) :
    (any parts).parameters = partsParameters parts :=
  partsParameters_map_collapse parts

@[simp] theorem parameters_conjoin (condition addition : Condition) :
    (condition.conjoin addition).parameters = condition.parameters ++ addition.parameters := by
  unfold conjoin
  split
  · simp [parameters]
  · simp [parameters, partsParameters]
  · simp [partsParameters]

@[simp] theorem parameters_negate (condition : Condition) :
    condition.negate.parameters = condition.parameters := by
  cases condition <;> simp [negate, parameters, partsParameters]

theorem partsParameters_map_negate (parts : List Condition) :
    partsParameters (parts.map negate) = partsParameters parts := by
  induction parts with
  | nil => rfl
  | cons part rest ih => simp [partsParameters, ih]

@[simp] theorem parameters_negateClauses (value : Json) (clauses : List Condition) :
    (negateClauses value clauses).parameters = partsParameters clauses := by
  cases value <;> simp [negateClauses, partsParameters_map_negate]

@[simp] theorem parameters_gather (key : String) (value : Json) (clauses : List Condition) :
    (gather key value clauses).parameters = partsParameters clauses := by
  unfold gather
  split_ifs <;> simp

/-- An entry at a position and what follows it. -/
theorem getElem?_of_drop {α : Type} {whole : List α} {position : Nat} {first : α} {rest : List α}
    (h : whole.drop position = first :: rest) :
    whole[position]? = some first ∧ whole.drop (position + 1) = rest := by
  constructor
  · rw [← List.head?_drop, h, List.head?_cons]
  · rw [← List.tail_drop, h, List.tail_cons]

mutual

theorem parameters_ofOperators (column : String) (whole : Fields) :
    ∀ (ignoreCase : Bool) (position : Nat) (operators : Fields) {parts : List Condition},
      whole.drop position = operators → ofOperators column ignoreCase operators = .ok parts →
      (partsParameters parts).map some =
        (Where.operatorsSources ignoreCase position operators).map (Source.read? (.obj whole))
  | _, _, [], parts, _, h => by
    obtain rfl : [] = parts := by simpa [ofOperators] using h
    simp [partsParameters, Where.operatorsSources]
  | ignoreCase, position, (operator, operand) :: rest, parts, hdrop, h => by
    obtain ⟨hfirst, hrest⟩ := getElem?_of_drop hdrop
    by_cases hflag : operator = Where.caseFlag
    · rw [ofOperators, if_pos hflag] at h
      have hmore := parameters_ofOperators column whole ignoreCase (position + 1) rest hrest h
      simpa [Where.operatorsSources, hflag] using hmore
    · obtain ⟨part, more, hpart, hmore, rfl⟩ :=
        (ofOperators_cons_eq_ok column ignoreCase hflag operand rest parts).mp h
      have hone := parameters_ofOperator column operator ignoreCase operand hpart
      have htail := parameters_ofOperators column whole ignoreCase (position + 1) rest hrest hmore
      have hbelow := funext (Source.read?_below_obj hfirst)
      simp [partsParameters, Where.operatorsSources, hflag, hone, htail, hbelow,
        Function.comp_def]

theorem parameters_ofOperator (column operator : String) : ∀ (ignoreCase : Bool) (operand : Json)
    {part : Condition}, ofOperator column ignoreCase operator operand = .ok part →
    part.parameters.map some =
      (Where.operatorSources operator ignoreCase operand).map (Source.read? operand)
  | ignoreCase, .obj inner, part, h => by
    simp only [ofOperator] at h
    split at h
    · split at h
      · rename_i parts hparts
        obtain rfl := Except.ok.inj h
        have hinner := parameters_ofOperators column inner _ 0 inner rfl hparts
        simpa [Where.operatorSources] using hinner
      · simp at h
    · simp at h
  | ignoreCase, .null, part, h | ignoreCase, .bool _, part, h | ignoreCase, .num _, part, h
  | ignoreCase, .str _, part, h | ignoreCase, .arr _, part, h => by
    obtain ⟨test, htest, rfl⟩ := ofOperator_plain rfl h
    exact Predicate.parameters_ofOperator? htest

end

theorem parameters_ofField {column : String} {value : Json} {part : Condition}
    (h : ofField column value = .ok part) :
    part.parameters.map some = (Where.fieldSources value).map (Source.read? value) := by
  cases value with
  | obj operators =>
    simp only [ofField, bind_eq_ok, pure_eq_ok] at h
    obtain ⟨parts, hparts, rfl⟩ := h
    have hall := parameters_ofOperators column operators _ 0 operators rfl hparts
    simpa [Where.fieldSources] using hall
  | _ =>
    simp only [ofField] at h
    split at h
    · rename_i test htest
      obtain rfl := Except.ok.inj h
      exact Predicate.parameters_equals? htest
    · simp at h

mutual

theorem parameters_ofEntries (whole : Fields) : ∀ (position : Nat) (entries : Fields)
    {parts : List Condition}, whole.drop position = entries → ofEntries entries = .ok parts →
    (partsParameters parts).map some =
      (Where.entriesSources position entries).map (Source.read? (.obj whole))
  | _, [], parts, _, h => by
    obtain rfl : [] = parts := by simpa [ofEntries] using h
    simp [partsParameters, Where.entriesSources]
  | position, (key, value) :: rest, parts, hdrop, h => by
    obtain ⟨hfirst, hrest⟩ := getElem?_of_drop hdrop
    obtain ⟨part, more, hpart, hmore, rfl⟩ := (ofEntries_cons_eq_ok key value rest parts).mp h
    have htail := parameters_ofEntries whole (position + 1) rest hrest hmore
    have hbelow := funext (Source.read?_below_obj hfirst)
    have hone : part.parameters.map some =
        (if Where.Logical key then Where.clausesSources value else Where.fieldSources value).map
          (Source.read? value) := by
      by_cases hlogical : Where.Logical key
      · rw [if_pos hlogical]
        rw [ofEntry_of_logical hlogical] at hpart
        obtain ⟨clauses, hclauses, rfl⟩ := (map_eq_ok _ _ _).mp hpart
        rw [parameters_gather]
        exact parameters_ofClauses key value hclauses
      · rw [if_neg hlogical]
        rw [ofEntry_of_not_logical hlogical] at hpart
        exact parameters_ofField hpart
    simp [partsParameters, Where.entriesSources, hone, htail, hbelow, Function.comp_def]

theorem parameters_ofClauses (key : String) : ∀ (value : Json) {clauses : List Condition},
    ofClauses key value = .ok clauses →
    (partsParameters clauses).map some =
      (Where.clausesSources value).map (Source.read? value)
  | .obj entries, clauses, h => by
    simp only [ofClauses, bind_eq_ok, pure_eq_ok] at h
    obtain ⟨parts, hparts, rfl⟩ := h
    have hentries := parameters_ofEntries entries 0 entries rfl hparts
    simpa [Where.clausesSources, partsParameters] using hentries
  | .arr items, clauses, h => by
    simp only [ofClauses] at h
    split at h
    · rename_i hitems
      exact parameters_ofItems items 0 items rfl hitems h
    · simp at h
  | .null, _, h | .bool _, _, h | .num _, _, h | .str _, _, h => by
    simp [ofClauses] at h

theorem parameters_ofItems (whole : List Json) : ∀ (position : Nat) (items : List Json)
    {clauses : List Condition}, whole.drop position = items → items.all (·.isObj) = true →
    ofItems items = .ok clauses →
    (partsParameters clauses).map some =
      (Where.itemsSources position items).map (Source.read? (.arr whole))
  | _, [], clauses, _, _, h => by
    obtain rfl : [] = clauses := by simpa [ofItems] using h
    simp [partsParameters, Where.itemsSources]
  | position, .obj entries :: rest, clauses, hdrop, hitems, h => by
    obtain ⟨hfirst, hrest⟩ := getElem?_of_drop hdrop
    obtain ⟨parts, more, hparts, hmore, rfl⟩ := (ofItems_cons_eq_ok entries rest clauses).mp h
    have hall : rest.all (·.isObj) = true := by simpa [Json.isObj] using hitems
    have hone := parameters_ofEntries entries 0 entries rfl hparts
    have htail := parameters_ofItems whole (position + 1) rest hrest hall hmore
    have hbelow := funext (Source.read?_below_arr hfirst)
    simp [partsParameters, Where.itemsSources, hone, htail, hbelow, Function.comp_def]
  | _, .null :: _, _, _, hitems, _ | _, .bool _ :: _, _, _, hitems, _
  | _, .num _ :: _, _, _, hitems, _ | _, .str _ :: _, _, _, hitems, _
  | _, .arr _ :: _, _, _, hitems, _ => by
    simp [Json.isObj] at hitems

end

/-- The parameters of a condition are what the sources of its where map give, in their order. -/
theorem parameters_ofWhere {tree : Fields} {condition : Condition}
    (h : ofWhere tree = .ok condition) :
    condition.parameters.map some = (Where.sources tree).map (Source.read? (.obj tree)) := by
  obtain ⟨parts, hparts, rfl⟩ := (map_eq_ok _ _ _).mp h
  rw [parameters_all]
  exact parameters_ofEntries tree 0 tree rfl hparts

end Condition

end Sql

end RecordQuery
