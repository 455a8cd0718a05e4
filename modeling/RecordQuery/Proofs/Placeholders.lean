import RecordQuery.Proofs.Operands

/-!
# Statements of where maps of one shape

Where maps of one shape differ in their plain operands only. With every such operand replaced by the
empty text, a where map that is accepted stays accepted and its statement keeps its text, and the
sources of its parameters are the same. So the text of a statement depends on the shape alone, and
two parameters at one position differ only if the operands at their common source do.
-/

namespace RecordQuery

namespace Where

open Sql

mutual

/-- The value with every plain operand replaced by the empty text. What stands under the case flag
is part of the shape. -/
def skeleton : Json → Json
  | .null => .null
  | .arr items => .arr (itemsSkeleton items)
  | .obj entries => .obj (entriesSkeleton entries)
  | .bool _ | .num _ | .str _ => .str ""

def itemsSkeleton : List Json → List Json
  | [] => []
  | item :: rest => skeleton item :: itemsSkeleton rest

def entriesSkeleton : List (String × Json) → List (String × Json)
  | [] => []
  | (key, value) :: rest =>
    (key, if key = caseFlag then value else skeleton value) :: entriesSkeleton rest

end

/-- The same keys and lengths, null in the same places and the same case flags. -/
def SameShape (tree other : Fields) : Prop := entriesSkeleton tree = entriesSkeleton other

instance (tree other : Fields) : Decidable (SameShape tree other) :=
  inferInstanceAs (Decidable (_ = _))

mutual

theorem skeleton_skeleton : ∀ value : Json, skeleton (skeleton value) = skeleton value
  | .null | .bool _ | .num _ | .str _ => rfl
  | .arr items => by simp [skeleton, itemsSkeleton_skeleton items]
  | .obj entries => by simp [skeleton, entriesSkeleton_skeleton entries]

theorem itemsSkeleton_skeleton : ∀ items : List Json,
    itemsSkeleton (itemsSkeleton items) = itemsSkeleton items
  | [] => rfl
  | item :: rest => by
    simp [itemsSkeleton, skeleton_skeleton item, itemsSkeleton_skeleton rest]

theorem entriesSkeleton_skeleton : ∀ entries : Fields,
    entriesSkeleton (entriesSkeleton entries) = entriesSkeleton entries
  | [] => rfl
  | (key, value) :: rest => by
    have hvalue := skeleton_skeleton value
    have hrest := entriesSkeleton_skeleton rest
    by_cases hflag : key = caseFlag <;> simp [entriesSkeleton, hflag, hvalue, hrest]

end

theorem ignoresCase_entriesSkeleton (operators : Fields) :
    Condition.ignoresCase (entriesSkeleton operators) = Condition.ignoresCase operators := by
  have hflag : ∀ fields : Fields,
      Entries.get? (entriesSkeleton fields) caseFlag = fields.get? caseFlag := by
    intro fields
    induction fields with
    | nil => rfl
    | cons entry rest ih =>
      obtain ⟨key, value⟩ := entry
      by_cases hkey : caseFlag = key
      · simp [entriesSkeleton, Entries.get?, ← hkey]
      · simp [entriesSkeleton, Entries.get?, hkey, ih]
  rw [Condition.ignoresCase, Condition.ignoresCase, hflag]

theorem length_itemsSkeleton (items : List Json) : (itemsSkeleton items).length = items.length := by
  induction items with
  | nil => rfl
  | cons item rest ih => simp [itemsSkeleton, ih]

theorem all_isObj_itemsSkeleton {items : List Json} (h : items.all (·.isObj) = true) :
    (itemsSkeleton items).all (·.isObj) = true := by
  induction items with
  | nil => rfl
  | cons item rest ih =>
    rw [List.all_cons, Bool.and_eq_true] at h
    cases item with
    | obj entries => simpa [itemsSkeleton, skeleton, Json.isObj] using ih h.2
    | _ => simp [Json.isObj] at h

theorem equalitySources_skeleton (operand : Json) :
    equalitySources (skeleton operand) = equalitySources operand := by
  cases operand <;> rfl

theorem membershipSources_skeleton (other : Nat) (operand : Json) :
    membershipSources other (skeleton operand) = membershipSources other operand := by
  cases operand with
  | arr items =>
    cases items with
    | nil => rfl
    | cons item rest => simp [skeleton, itemsSkeleton, membershipSources, length_itemsSkeleton]
  | _ => rfl

theorem plainSources_skeleton (operator : String) (ignoreCase : Bool) (operand : Json) :
    plainSources operator ignoreCase (skeleton operand) =
      plainSources operator ignoreCase operand := by
  unfold plainSources
  split
  · exact equalitySources_skeleton operand
  · exact equalitySources_skeleton operand
  · rfl
  · rfl
  · rfl
  · exact membershipSources_skeleton 2 operand
  · exact membershipSources_skeleton 1 operand
  · rfl

mutual

theorem operatorsSources_skeleton : ∀ (ignoreCase : Bool) (position : Nat) (operators : Fields),
    operatorsSources ignoreCase position (entriesSkeleton operators) =
      operatorsSources ignoreCase position operators
  | _, _, [] => rfl
  | ignoreCase, position, (operator, operand) :: rest => by
    have hrest := operatorsSources_skeleton ignoreCase (position + 1) rest
    have hone := operatorSources_skeleton operator ignoreCase operand
    by_cases hflag : operator = caseFlag
    · simp [entriesSkeleton, operatorsSources, hflag, hrest]
    · simp [entriesSkeleton, operatorsSources, hflag, hone, hrest]

theorem operatorSources_skeleton (operator : String) : ∀ (ignoreCase : Bool) (operand : Json),
    operatorSources operator ignoreCase (skeleton operand) =
      operatorSources operator ignoreCase operand
  | ignoreCase, .obj inner => by
    have hinner := operatorsSources_skeleton (ignoreCase || Condition.ignoresCase inner) 0 inner
    simp [skeleton, operatorSources, ignoresCase_entriesSkeleton, hinner]
  | ignoreCase, .null | ignoreCase, .bool _ | ignoreCase, .num _ | ignoreCase, .str _
  | ignoreCase, .arr _ => plainSources_skeleton operator ignoreCase _

end

theorem fieldSources_skeleton (value : Json) :
    fieldSources (skeleton value) = fieldSources value := by
  cases value with
  | obj operators =>
    simp [skeleton, fieldSources, ignoresCase_entriesSkeleton, operatorsSources_skeleton]
  | _ => rfl

mutual

theorem entriesSources_skeleton : ∀ (position : Nat) (entries : Fields),
    entriesSources position (entriesSkeleton entries) = entriesSources position entries
  | _, [] => rfl
  | position, (key, value) :: rest => by
    have hrest := entriesSources_skeleton (position + 1) rest
    have hclauses := clausesSources_skeleton value
    have hfield := fieldSources_skeleton value
    by_cases hflag : key = caseFlag
    · simp [entriesSkeleton, entriesSources, hflag, hrest]
    · simp [entriesSkeleton, entriesSources, hflag, hclauses, hfield, hrest]

theorem clausesSources_skeleton : ∀ value : Json,
    clausesSources (skeleton value) = clausesSources value
  | .obj entries => by simp [skeleton, clausesSources, entriesSources_skeleton 0 entries]
  | .arr items => by simp [skeleton, clausesSources, itemsSources_skeleton 0 items]
  | .null | .bool _ | .num _ | .str _ => rfl

theorem itemsSources_skeleton : ∀ (position : Nat) (items : List Json),
    itemsSources position (itemsSkeleton items) = itemsSources position items
  | _, [] => rfl
  | position, .obj entries :: rest => by
    have hentries := entriesSources_skeleton 0 entries
    have hrest := itemsSources_skeleton (position + 1) rest
    simp [itemsSkeleton, skeleton, itemsSources, hentries, hrest]
  | position, .null :: rest | position, .bool _ :: rest | position, .num _ :: rest
  | position, .str _ :: rest | position, .arr _ :: rest =>
    itemsSources_skeleton (position + 1) rest

end

/-- The sources depend on the shape alone. -/
theorem sources_eq_of_sameShape {tree other : Fields} (h : SameShape tree other) :
    sources tree = sources other := by
  rw [sources, ← entriesSources_skeleton, h, entriesSources_skeleton, sources]

end Where

namespace Sql

/-- The predicate with the empty text in the place of every parameter. -/
def Predicate.blank : Predicate → Predicate
  | compare column comparison _ => compare column comparison (.text "")
  | isNull column => isNull column
  | isNotNull column => isNotNull column
  | like column upperCase _ => like column upperCase ""
  | isIn column values => isIn column (values.map fun _ => .text "")
  | isNotIn column values => isNotIn column (values.map fun _ => .text "")

def Piece.blank : Piece → Piece
  | text value => text value
  | parameter _ => parameter (.text "")

theorem Piece.template_eq_of_map_blank {pieces others : List Piece}
    (h : pieces.map Piece.blank = others.map Piece.blank) : template pieces = template others := by
  have hblank : ∀ list : List Piece, template (list.map Piece.blank) = template list := by
    intro list
    rw [template, template, List.map_map]
    congr 2
    funext piece
    cases piece <;> rfl
  rw [← hblank pieces, h, hblank]

theorem Piece.map_blank_intersperse (separator : String) (values : List Parameter) :
    (((values.map fun _ => Parameter.text "").map parameter).intersperse (text separator)).map
        Piece.blank =
      ((values.map parameter).intersperse (text separator)).map Piece.blank := by
  induction values with
  | nil => rfl
  | cons first rest ih =>
    cases rest with
    | nil => rfl
    | cons second more => simpa [Piece.blank] using ih

theorem Predicate.map_blank_tuple (values : List Parameter) :
    (tuple (values.map fun _ => .text "")).map Piece.blank = (tuple values).map Piece.blank := by
  have hvalues := Piece.map_blank_intersperse ", " values
  simp only [tuple, List.cons_append, List.map_cons, List.map_append, hvalues]

theorem Predicate.map_blank_pieces (test : Predicate) :
    test.blank.pieces.map Piece.blank = test.pieces.map Piece.blank := by
  cases test with
  | isIn column values | isNotIn column values =>
    cases values with
    | nil => rfl
    | cons first rest =>
      have hvalues := map_blank_tuple (first :: rest)
      simpa [blank, pieces, Piece.blank] using hvalues
  | _ => rfl

namespace Condition

mutual

/-- The condition with the empty text in the place of every parameter. -/
def blank : Condition → Condition
  | .predicate test => .predicate test.blank
  | .group connective negated parts => .group connective negated (blankParts parts)

def blankParts : List Condition → List Condition
  | [] => []
  | part :: rest => blank part :: blankParts rest

end

theorem blankParts_eq_map (parts : List Condition) : blankParts parts = parts.map blank := by
  induction parts with
  | nil => rfl
  | cons part rest ih => simp [blankParts, ih]

end Condition

namespace Expression

def blank : Expression → Expression
  | predicate test => predicate test.blank
  | constant value => constant value
  | not operand => not operand.blank
  | join connective left right => join connective left.blank right.blank

@[simp] theorem isNot_blank (expression : Expression) :
    expression.blank.isNot = expression.isNot := by
  cases expression <;> rfl

@[simp] theorem isJoin_blank (expression : Expression) :
    expression.blank.isJoin = expression.isJoin := by
  cases expression <;> rfl

@[simp] theorem joinsOtherwise_blank (connective : Connective) (expression : Expression) :
    expression.blank.joinsOtherwise connective = expression.joinsOtherwise connective := by
  cases expression <;> rfl

theorem map_blank_parenthesised (needed : Bool) (pieces : List Piece) :
    (parenthesised needed pieces).map Piece.blank =
      parenthesised needed (pieces.map Piece.blank) := by
  cases needed <;> simp [parenthesised, Piece.blank]

theorem map_blank_pieces (expression : Expression) :
    expression.blank.pieces.map Piece.blank = expression.pieces.map Piece.blank := by
  induction expression with
  | predicate test => exact test.map_blank_pieces
  | constant value => rfl
  | not operand ih => simp [blank, pieces, map_blank_parenthesised, ih]
  | join connective left right ihLeft ihRight =>
    simp [blank, pieces, map_blank_parenthesised, ihLeft, ihRight]

end Expression

namespace Condition

mutual

theorem toExpression_blank : ∀ condition : Condition,
    condition.blank.toExpression = condition.toExpression.blank
  | .predicate test => by simp [blank, toExpression, Expression.blank]
  | .group connective negated parts => by
    have hjoined := joinParts_blank connective parts
    cases negated <;> simp [blank, toExpression, Expression.blank, hjoined]

theorem joinParts_blank (connective : Connective) : ∀ parts : List Condition,
    joinParts connective (blankParts parts) = (joinParts connective parts).blank
  | [] => by simp [blankParts, joinParts, Expression.blank]
  | first :: rest => by
    rw [blankParts, joinParts, joinParts, toExpression_blank, joinOnto_blank]

theorem joinOnto_blank (connective : Connective) : ∀ (left : Expression)
    (parts : List Condition), joinOnto connective left.blank (blankParts parts) =
      (joinOnto connective left parts).blank
  | left, [] => by simp [blankParts, joinOnto]
  | left, next :: rest => by
    rw [blankParts, joinOnto, joinOnto, toExpression_blank, ← joinOnto_blank, Expression.blank]

end

/-- Conditions that differ in their parameters only are written with the same text. -/
theorem map_blank_pieces_of_blank_eq {condition other : Condition}
    (h : condition.blank = other.blank) :
    condition.toExpression.pieces.map Piece.blank = other.toExpression.pieces.map Piece.blank := by
  rw [← Expression.map_blank_pieces, ← toExpression_blank, h, toExpression_blank,
    Expression.map_blank_pieces]

theorem blank_collapse (condition : Condition) :
    condition.blank.collapse = condition.collapse.blank := by
  cases condition with
  | predicate test => rfl
  | group connective negated parts =>
    cases negated with
    | true => rfl
    | false =>
      rcases parts with _ | ⟨only, _ | ⟨second, rest⟩⟩
      · rfl
      · rfl
      · rfl

theorem map_collapse_blank (parts : List Condition) :
    (parts.map blank).map collapse = blankParts (parts.map collapse) := by
  simp [blankParts_eq_map, blank_collapse]

theorem blank_all (parts : List Condition) : (all parts).blank = all (parts.map blank) := by
  rw [all, all, blank, map_collapse_blank]

theorem blank_any (parts : List Condition) : (any parts).blank = any (parts.map blank) := by
  rw [any, any, blank, map_collapse_blank]

theorem blank_conjoin : ∀ condition addition : Condition,
    (condition.conjoin addition).blank = condition.blank.conjoin addition.blank
  | .group .all false parts, .group .all false more => by
    simp [conjoin, blank, blankParts_eq_map]
  | .group .all false parts, .predicate _ | .group .all false parts, .group .all true _
  | .group .all false parts, .group .any _ _ => by
    simp [conjoin, blank, blankParts_eq_map, ← blank_collapse]
  | .predicate _, addition | .group .all true _, addition | .group .any _ _, addition =>
    blank_all [_, addition]

theorem blank_negate (condition : Condition) : condition.negate.blank = condition.blank.negate := by
  cases condition <;> rfl

theorem blank_negateClauses (value : Json) (clauses : List Condition) :
    (negateClauses value clauses).blank =
      negateClauses (Where.skeleton value) (clauses.map blank) := by
  cases value <;>
    simp [negateClauses, Where.skeleton, blank_all, blank_negate, Function.comp_def]

theorem blank_gather (key : String) (value : Json) (clauses : List Condition) :
    (gather key value clauses).blank = gather key (Where.skeleton value) (clauses.map blank) := by
  unfold gather
  split_ifs
  · exact blank_all clauses
  · exact blank_any clauses
  · exact blank_negateClauses value clauses

end Condition

namespace Predicate

theorem ofJson?_skeleton {operand : Json} {value : Parameter}
    (h : Parameter.ofJson? operand = some value) :
    Parameter.ofJson? (Where.skeleton operand) = some (.text "") := by
  cases operand with
  | null | arr items | obj entries => simp [Parameter.ofJson?] at h
  | _ => rfl

theorem toList_skeleton (operand : Json) :
    (Where.skeleton operand).toList = Where.itemsSkeleton operand.toList := by
  cases operand <;> rfl

theorem listOfJson?_skeleton {operand : Json} {values : List Parameter}
    (h : Parameter.listOfJson? operand = some values) :
    Parameter.listOfJson? (Where.skeleton operand) = some (values.map fun _ => .text "") := by
  have hitems : ∀ (items : List Json) {values : List Parameter},
      items.mapM Parameter.ofJson? = some values →
      (Where.itemsSkeleton items).mapM Parameter.ofJson? = some (values.map fun _ => .text "") := by
    intro items
    induction items with
    | nil =>
      intro values hnil
      obtain rfl : [] = values := by simpa using hnil
      rfl
    | cons item rest ih =>
      intro values hcons
      simp only [List.mapM_cons, Option.pure_def, Option.bind_eq_bind, Option.bind_eq_some_iff,
        Option.some.injEq] at hcons
      obtain ⟨value, hvalue, more, hmore, rfl⟩ := hcons
      simp [Where.itemsSkeleton, ofJson?_skeleton hvalue, ih hmore]
  rw [Parameter.listOfJson?, toList_skeleton]
  exact hitems operand.toList h

/-- A predicate that is made of an operand whatever its value. -/
theorem exists_map_skeleton (make : Parameter → Predicate)
    (hmake : ∀ value other, (make value).blank = (make other).blank) {operand : Json}
    {test : Predicate} (h : (Parameter.ofJson? operand).map make = some test) :
    ∃ kept, (Parameter.ofJson? (Where.skeleton operand)).map make = some kept ∧
      kept.blank = test.blank := by
  obtain ⟨value, hvalue, rfl⟩ := Option.map_eq_some_iff.mp h
  exact ⟨make (.text ""), by rw [ofJson?_skeleton hvalue, Option.map_some], hmake _ _⟩

theorem exists_membership_skeleton {make : List Parameter → Predicate}
    (hmake : ∀ values, (make (values.map fun _ => .text "")).blank = (make values).blank)
    {operand : Json} {test : Predicate}
    (h : (Parameter.listOfJson? operand).map make = some test) :
    ∃ kept, (Parameter.listOfJson? (Where.skeleton operand)).map make = some kept ∧
      kept.blank = test.blank := by
  obtain ⟨values, hvalues, rfl⟩ := Option.map_eq_some_iff.mp h
  exact ⟨_, by rw [listOfJson?_skeleton hvalues, Option.map_some], hmake values⟩

/-- A test of its own for null, and one that is made of any other operand. -/
theorem exists_nullable_skeleton {test? : Json → Option Predicate} (make : Parameter → Predicate)
    (hmake : ∀ value other, (make value).blank = (make other).blank)
    (htest : ∀ operand, operand ≠ .null → test? operand = (Parameter.ofJson? operand).map make)
    {operand : Json} {test : Predicate} (h : test? operand = some test) :
    ∃ kept, test? (Where.skeleton operand) = some kept ∧ kept.blank = test.blank := by
  by_cases hnull : operand = .null
  · subst hnull
    exact ⟨test, h, rfl⟩
  · have hkept : Where.skeleton operand ≠ .null := by
      cases operand with
      | null => exact (hnull rfl).elim
      | _ => simp [Where.skeleton]
    rw [htest operand hnull] at h
    rw [htest _ hkept]
    exact exists_map_skeleton make hmake h

theorem exists_equals?_skeleton {column : String} {operand : Json} {test : Predicate}
    (h : equals? column operand = some test) :
    ∃ kept, equals? column (Where.skeleton operand) = some kept ∧ kept.blank = test.blank := by
  apply exists_nullable_skeleton (compare column .eq) (fun _ _ => rfl) _ h
  intro value hvalue
  cases value with
  | null => exact (hvalue rfl).elim
  | _ => rfl

theorem exists_differs?_skeleton {column : String} {operand : Json} {test : Predicate}
    (h : differs? column operand = some test) :
    ∃ kept, differs? column (Where.skeleton operand) = some kept ∧ kept.blank = test.blank := by
  apply exists_nullable_skeleton (compare column .ne) (fun _ _ => rfl) _ h
  intro value hvalue
  cases value with
  | null => exact (hvalue rfl).elim
  | _ => rfl

theorem exists_like?_skeleton {column : String} {anchor : Anchor} {ignoreCase : Bool}
    {operand : Json} {test : Predicate} (h : like? column anchor ignoreCase operand = some test) :
    ∃ kept, like? column anchor ignoreCase (Where.skeleton operand) = some kept ∧
      kept.blank = test.blank := by
  cases operand with
  | str term =>
    simp only [like?, Option.some.injEq] at h
    subst h
    exact ⟨_, rfl, rfl⟩
  | _ => simp [like?] at h

theorem exists_ofOperator?_skeleton {column operator : String} {ignoreCase : Bool}
    {operand : Json} {test : Predicate}
    (h : ofOperator? column operator ignoreCase operand = some test) :
    ∃ kept, ofOperator? column operator ignoreCase (Where.skeleton operand) = some kept ∧
      kept.blank = test.blank := by
  unfold ofOperator? at h ⊢
  split at h
  · exact exists_equals?_skeleton h
  · exact exists_differs?_skeleton h
  · exact exists_map_skeleton _ (fun _ _ => rfl) h
  · exact exists_map_skeleton _ (fun _ _ => rfl) h
  · exact exists_map_skeleton _ (fun _ _ => rfl) h
  · exact exists_map_skeleton _ (fun _ _ => rfl) h
  · exact exists_like?_skeleton h
  · exact exists_like?_skeleton h
  · exact exists_like?_skeleton h
  · exact exists_membership_skeleton (fun _ => by simp [blank]) h
  · exact exists_membership_skeleton (fun _ => by simp [blank]) h
  · simp at h

end Predicate

namespace Condition

mutual

theorem exists_ofOperators_skeleton (column : String) : ∀ (ignoreCase : Bool)
    (operators : Fields) {parts : List Condition},
    ofOperators column ignoreCase operators = .ok parts →
    ∃ kept, ofOperators column ignoreCase (Where.entriesSkeleton operators) = .ok kept ∧
      kept.map blank = parts.map blank
  | _, [], parts, h => ⟨parts, h, rfl⟩
  | ignoreCase, (operator, operand) :: rest, parts, h => by
    by_cases hflag : operator = Where.caseFlag
    · rw [ofOperators, if_pos hflag] at h
      rw [Where.entriesSkeleton, ofOperators, if_pos hflag]
      exact exists_ofOperators_skeleton column ignoreCase rest h
    · obtain ⟨part, more, hpart, hmore, rfl⟩ :=
        (ofOperators_cons_eq_ok column ignoreCase hflag operand rest parts).mp h
      obtain ⟨keptPart, hkeptPart, hblankPart⟩ :=
        exists_ofOperator_skeleton column operator ignoreCase operand hpart
      obtain ⟨keptMore, hkeptMore, hblankMore⟩ :=
        exists_ofOperators_skeleton column ignoreCase rest hmore
      refine ⟨keptPart :: keptMore, ?_, by simp only [List.map_cons, hblankPart, hblankMore]⟩
      rw [Where.entriesSkeleton, if_neg hflag]
      exact (ofOperators_cons_eq_ok column ignoreCase hflag _ _ _).mpr
        ⟨keptPart, keptMore, hkeptPart, hkeptMore, rfl⟩

theorem exists_ofOperator_skeleton (column operator : String) : ∀ (ignoreCase : Bool)
    (operand : Json) {part : Condition}, ofOperator column ignoreCase operator operand = .ok part →
    ∃ kept, ofOperator column ignoreCase operator (Where.skeleton operand) = .ok kept ∧
      kept.blank = part.blank
  | ignoreCase, .obj inner, part, h => by
    simp only [ofOperator] at h
    split at h
    · rename_i hnot
      split at h
      · rename_i parts hparts
        obtain rfl := Except.ok.inj h
        obtain ⟨kept, hkept, hblank⟩ := exists_ofOperators_skeleton column _ inner hparts
        refine ⟨negate (all kept), ?_, by simp only [blank_negate, blank_all, hblank]⟩
        simp [Where.skeleton, ofOperator, hnot, Where.ignoresCase_entriesSkeleton, hkept]
      · simp at h
    · simp at h
  | ignoreCase, .null, part, h | ignoreCase, .bool _, part, h | ignoreCase, .num _, part, h
  | ignoreCase, .str _, part, h | ignoreCase, .arr _, part, h => by
    obtain ⟨test, htest, rfl⟩ := ofOperator_plain rfl h
    obtain ⟨kept, hkept, hblank⟩ := Predicate.exists_ofOperator?_skeleton htest
    refine ⟨.predicate kept, ?_, by rw [blank, hblank, blank]⟩
    simp only [Where.skeleton] at hkept ⊢
    simp only [ofOperator, hkept]

end

theorem exists_ofField_skeleton {column : String} {value : Json} {part : Condition}
    (h : ofField column value = .ok part) :
    ∃ kept, ofField column (Where.skeleton value) = .ok kept ∧ kept.blank = part.blank := by
  cases value with
  | obj operators =>
    simp only [ofField, bind_eq_ok, pure_eq_ok] at h
    obtain ⟨parts, hparts, rfl⟩ := h
    obtain ⟨kept, hkept, hblank⟩ := exists_ofOperators_skeleton column _ operators hparts
    refine ⟨all kept, ?_, by rw [blank_all, hblank, blank_all]⟩
    simp only [Where.skeleton, ofField, Where.ignoresCase_entriesSkeleton, bind_eq_ok, pure_eq_ok]
    exact ⟨kept, hkept, rfl⟩
  | _ =>
    simp only [ofField] at h
    split at h
    · rename_i test htest
      obtain rfl := Except.ok.inj h
      obtain ⟨kept, hkept, hblank⟩ := Predicate.exists_equals?_skeleton htest
      refine ⟨.predicate kept, ?_, by rw [blank, hblank, blank]⟩
      simp only [Where.skeleton] at hkept ⊢
      simp only [ofField, hkept]
    · simp at h

mutual

theorem exists_ofEntries_skeleton : ∀ (entries : Fields) {parts : List Condition},
    ofEntries entries = .ok parts →
    ∃ kept, ofEntries (Where.entriesSkeleton entries) = .ok kept ∧
      kept.map blank = parts.map blank
  | [], parts, h => ⟨parts, h, rfl⟩
  | (key, value) :: rest, parts, h => by
    obtain ⟨part, more, hpart, hmore, rfl⟩ := (ofEntries_cons_eq_ok key value rest parts).mp h
    obtain ⟨keptMore, hkeptMore, hblankMore⟩ := exists_ofEntries_skeleton rest hmore
    have hone : ∃ keptPart, ofEntry key (if key = Where.caseFlag then value
        else Where.skeleton value) = .ok keptPart ∧ keptPart.blank = part.blank := by
      by_cases hflag : key = Where.caseFlag
      · rw [if_pos hflag]
        exact ⟨part, hpart, rfl⟩
      · rw [if_neg hflag]
        by_cases hlogical : Where.Logical key
        · rw [ofEntry_of_logical hlogical] at hpart ⊢
          obtain ⟨clauses, hclauses, rfl⟩ := (map_eq_ok _ _ _).mp hpart
          obtain ⟨kept, hkept, hblank⟩ := exists_ofClauses_skeleton key value hclauses
          refine ⟨gather key (Where.skeleton value) kept, ?_, ?_⟩
          · exact (map_eq_ok _ _ _).mpr ⟨kept, hkept, rfl⟩
          · rw [blank_gather, blank_gather, hblank, Where.skeleton_skeleton]
        · rw [ofEntry_of_not_logical hlogical] at hpart ⊢
          exact exists_ofField_skeleton hpart
    obtain ⟨keptPart, hkeptPart, hblankPart⟩ := hone
    refine ⟨keptPart :: keptMore, ?_, by simp only [List.map_cons, hblankPart, hblankMore]⟩
    exact (ofEntries_cons_eq_ok key _ _ _).mpr ⟨keptPart, keptMore, hkeptPart, hkeptMore, rfl⟩

theorem exists_ofClauses_skeleton (key : String) : ∀ (value : Json) {clauses : List Condition},
    ofClauses key value = .ok clauses →
    ∃ kept, ofClauses key (Where.skeleton value) = .ok kept ∧ kept.map blank = clauses.map blank
  | .obj entries, clauses, h => by
    simp only [ofClauses, bind_eq_ok, pure_eq_ok] at h
    obtain ⟨parts, hparts, rfl⟩ := h
    obtain ⟨kept, hkept, hblank⟩ := exists_ofEntries_skeleton entries hparts
    refine ⟨[all kept], ?_, by simp only [List.map_cons, List.map_nil, blank_all, hblank]⟩
    simp only [Where.skeleton, ofClauses, bind_eq_ok, pure_eq_ok]
    exact ⟨kept, hkept, rfl⟩
  | .arr items, clauses, h => by
    simp only [ofClauses] at h
    split at h
    · rename_i hitems
      obtain ⟨kept, hkept, hblank⟩ := exists_ofItems_skeleton items hitems h
      refine ⟨kept, ?_, hblank⟩
      rw [Where.skeleton, ofClauses, if_pos (Where.all_isObj_itemsSkeleton hitems)]
      exact hkept
    · simp at h
  | .null, _, h | .bool _, _, h | .num _, _, h | .str _, _, h => by
    simp [ofClauses] at h

theorem exists_ofItems_skeleton : ∀ (items : List Json) {clauses : List Condition},
    items.all (·.isObj) = true → ofItems items = .ok clauses →
    ∃ kept, ofItems (Where.itemsSkeleton items) = .ok kept ∧ kept.map blank = clauses.map blank
  | [], clauses, _, h => ⟨clauses, h, rfl⟩
  | .obj entries :: rest, clauses, hitems, h => by
    obtain ⟨parts, more, hparts, hmore, rfl⟩ := (ofItems_cons_eq_ok entries rest clauses).mp h
    have hall : rest.all (·.isObj) = true := by simpa [Json.isObj] using hitems
    obtain ⟨keptParts, hkeptParts, hblankParts⟩ := exists_ofEntries_skeleton entries hparts
    obtain ⟨keptMore, hkeptMore, hblankMore⟩ := exists_ofItems_skeleton rest hall hmore
    refine ⟨all keptParts :: keptMore, ?_, ?_⟩
    · rw [Where.itemsSkeleton, Where.skeleton]
      exact (ofItems_cons_eq_ok _ _ _).mpr ⟨keptParts, keptMore, hkeptParts, hkeptMore, rfl⟩
    · simp only [List.map_cons, blank_all, hblankParts, hblankMore]
  | .null :: _, _, hitems, _ | .bool _ :: _, _, hitems, _ | .num _ :: _, _, hitems, _
  | .str _ :: _, _, hitems, _ | .arr _ :: _, _, hitems, _ => by
    simp [Json.isObj] at hitems

end

/-- Accepted where maps of one shape become conditions that differ in their parameters only. -/
theorem blank_eq_of_sameShape {tree other : Fields} (hshape : Where.SameShape tree other)
    {condition second : Condition} (htree : ofWhere tree = .ok condition)
    (hother : ofWhere other = .ok second) : condition.blank = second.blank := by
  obtain ⟨parts, hparts, rfl⟩ := (map_eq_ok _ _ _).mp htree
  obtain ⟨others, hothers, rfl⟩ := (map_eq_ok _ _ _).mp hother
  obtain ⟨kept, hkept, hblank⟩ := exists_ofEntries_skeleton tree hparts
  obtain ⟨keptOther, hkeptOther, hblankOther⟩ := exists_ofEntries_skeleton other hothers
  rw [hshape, hkeptOther] at hkept
  obtain rfl := Except.ok.inj hkept
  rw [blank_all, blank_all, ← hblank, hblankOther]

end Condition

namespace Source

theorem exists_operand_of_read? {tree : Json} {place : List Nat} {use : Use} {value : Parameter}
    (h : read? tree (operand place use) = some value) :
    ∃ found, tree.at? place = some found ∧ use.parameter? found = some value :=
  Option.bind_eq_some_iff.mp h

/-- Parameters that are read from the same sources differ only through an operand that does. -/
theorem exists_operand_of_ne {sources : List Source} {tree other : Json}
    {values others : List Parameter} (h : values.map some = sources.map (read? tree))
    (hother : others.map some = sources.map (read? other)) {position : Nat}
    (hne : values[position]? ≠ others[position]?) :
    ∃ place use found changed, sources[position]? = some (operand place use) ∧
      tree.at? place = some found ∧ other.at? place = some changed ∧ found ≠ changed := by
  have hread : values[position]?.map some = sources[position]?.map (read? tree) := by
    rw [← List.getElem?_map, h, List.getElem?_map]
  have hreadOther : others[position]?.map some = sources[position]?.map (read? other) := by
    rw [← List.getElem?_map, hother, List.getElem?_map]
  cases hsource : sources[position]? with
  | none =>
    rw [hsource, Option.map_none, Option.map_eq_none_iff] at hread hreadOther
    exact (hne (hread.trans hreadOther.symm)).elim
  | some source =>
    rw [hsource, Option.map_some, Option.map_eq_some_iff] at hread hreadOther
    obtain ⟨value, hvalue, hfrom⟩ := hread
    obtain ⟨second, hsecond, hfromOther⟩ := hreadOther
    cases source with
    | fixed parameter =>
      obtain rfl : value = parameter := Option.some.inj hfrom
      obtain rfl : second = value := Option.some.inj hfromOther
      exact (hne (hvalue.trans hsecond.symm)).elim
    | operand place use =>
      obtain ⟨found, hfound, hmade⟩ := exists_operand_of_read? hfrom.symm
      obtain ⟨changed, hchanged, hmadeOther⟩ := exists_operand_of_read? hfromOther.symm
      refine ⟨place, use, found, changed, rfl, hfound, hchanged, ?_⟩
      rintro rfl
      rw [hmade] at hmadeOther
      exact hne (by rw [hvalue, hsecond, hmadeOther])

end Source

namespace Select

/-- The condition is the only part of a statement that the where map decides on. -/
theorem withArguments_condition (select : Select) (arguments : Arguments) {tree : Fields}
    {condition : Condition} (h : Condition.ofWhere tree = .ok condition) :
    (select.withArguments { arguments with condition := some tree }).1 =
      (select.withArguments { arguments with condition := none }).1.restrict condition := by
  have hsome : Option.mapM Condition.ofWhere (some tree) = .ok (some condition) :=
    congrArg (Functor.map some) h
  have hnone : Option.mapM Condition.ofWhere none = .ok none := rfl
  simp only [withArguments, hsome, hnone]
  cases arguments.take.mapM (rows "take") with
  | error cause => rfl
  | ok limit =>
    cases arguments.skip.mapM (rows "skip") with
    | error cause => rfl
    | ok offset => rfl

/-- What follows the condition in a statement. -/
def tailPieces (select : Select) : List Piece :=
  orderPieces select.sort ++ countPieces " LIMIT " select.limit
    ++ countPieces " OFFSET " select.offset

theorem pieces_restrict (select : Select) (condition : Condition) :
    (select.restrict condition).pieces =
      .text ("SELECT * FROM " ++ identifier select.table) :: .text " WHERE "
        :: ((select.condition.elim condition (·.conjoin condition)).toExpression.pieces
          ++ select.tailPieces) := by
  simp [restrict, pieces, tailPieces]

theorem parameters_restrict (select : Select) (condition : Condition) :
    Piece.parameters (select.restrict condition).pieces =
      select.condition.elim [] Condition.parameters
        ++ (condition.parameters ++ Piece.parameters select.tailPieces) := by
  rw [pieces_restrict]
  cases select.condition <;> simp [Condition.parameters_toExpression]

theorem map_blank_restrict (select : Select) {condition second : Condition}
    (h : condition.blank = second.blank) :
    (select.restrict condition).pieces.map Piece.blank =
      (select.restrict second).pieces.map Piece.blank := by
  rw [pieces_restrict, pieces_restrict]
  have hjoined : (select.condition.elim condition (·.conjoin condition)).blank =
      (select.condition.elim second (·.conjoin second)).blank := by
    cases select.condition with
    | none => exact h
    | some earlier => exact (earlier.blank_conjoin _).trans (h ▸ (earlier.blank_conjoin _).symm)
  simp [Condition.map_blank_pieces_of_blank_eq hjoined]

/-- The plain operands of a where map never reach the text of a statement that takes it over. Where
maps of one shape that are accepted give statements with one template and as many parameters. Each
parameter has a source, the same for both, and the two at a position differ only if that is an
operand and the operands there differ. -/
theorem operands_stay_out_of_text (select : Select) (arguments : Arguments) {tree other : Fields}
    (hshape : Where.SameShape tree other) {condition second : Condition}
    (htree : Condition.ofWhere tree = .ok condition)
    (hother : Condition.ofWhere other = .ok second) :
    let written (map : Fields) :=
      (select.withArguments { arguments with condition := some map }).1.pieces
    Piece.template (written tree) = Piece.template (written other) ∧
      (Piece.parameters (written tree)).length = (Piece.parameters (written other)).length ∧
      ∃ sources : List Source,
        (Piece.parameters (written tree)).map some = sources.map (Source.read? (.obj tree)) ∧
        (Piece.parameters (written other)).map some = sources.map (Source.read? (.obj other)) ∧
        ∀ position : Nat,
          (Piece.parameters (written tree))[position]? ≠
            (Piece.parameters (written other))[position]? →
          ∃ place use operand changed, sources[position]? = some (.operand place use) ∧
            (Json.obj tree).at? place = some operand ∧
            (Json.obj other).at? place = some changed ∧ operand ≠ changed := by
  intro written
  let rest := (select.withArguments { arguments with condition := none }).1
  have hwritten : written tree = (rest.restrict condition).pieces := by
    simp only [written, rest, withArguments_condition select arguments htree]
  have hwrittenOther : written other = (rest.restrict second).pieces := by
    simp only [written, rest, withArguments_condition select arguments hother]
  let sources := (rest.condition.elim [] Condition.parameters).map .fixed
    ++ (Where.sources tree ++ (Piece.parameters rest.tailPieces).map .fixed)
  have hreads : (Piece.parameters (written tree)).map some =
      sources.map (Source.read? (.obj tree)) := by
    simp [hwritten, parameters_restrict, sources, Condition.parameters_ofWhere htree,
      Source.read?, Function.comp_def]
  have hreadsOther : (Piece.parameters (written other)).map some =
      sources.map (Source.read? (.obj other)) := by
    simp [hwrittenOther, parameters_restrict, sources, Condition.parameters_ofWhere hother,
      Source.read?, Where.sources_eq_of_sameShape hshape, Function.comp_def]
  refine ⟨?_, ?_, sources, hreads, hreadsOther, ?_⟩
  · apply Piece.template_eq_of_map_blank
    rw [hwritten, hwrittenOther]
    exact rest.map_blank_restrict (Condition.blank_eq_of_sameShape hshape htree hother)
  · have hlength := congrArg List.length hreads
    have hlengthOther := congrArg List.length hreadsOther
    simp only [List.length_map] at hlength hlengthOther
    omega
  · intro position hne
    exact Source.exists_operand_of_ne hreads hreadsOther hne

/-- Two searches of one shape, with other operands of other kinds below a denial, in a list and in a
pattern that ignores case, taken over by a statement that has a condition of its own. -/
theorem operands_stay_out_of_text_in_search :
    let tree : Fields :=
      [("NOT", .arr [.obj [("age", .obj [("in", .arr [.int 1, .int 2]), ("not", .null)])]]),
        ("name", .obj [("caseInsensitive", .bool true), ("contains", .str "a")])]
    let other : Fields :=
      [("NOT", .arr [.obj [("age", .obj [("in", .arr [.str "x'", .int 2]), ("not", .null)])]]),
        ("name", .obj [("caseInsensitive", .bool true), ("contains", .str "?%")])]
    let select : Select :=
      { table := "users", condition := some (.all [.predicate (.compare "id" .gt (.int 9))]) }
    let written (map : Fields) :=
      (select.withArguments { condition := some map, take := some 5 }).1.pieces
    Where.SameShape tree other ∧ (Condition.ofWhere tree).isOk ∧ (Condition.ofWhere other).isOk ∧
      Piece.template (written tree) = Piece.template (written other) ∧
      Piece.parameters (written tree) =
        [.int 9, .int 1, .int 2, .text "%A%", .count 5] ∧
      Piece.parameters (written other) =
        [.int 9, .text "x'", .int 2, .text "%?\\%%", .count 5] := by
  intro tree other select written
  have hshape : Where.SameShape tree other := by decide
  refine ⟨hshape, rfl, rfl, ?_, by decide, by decide⟩
  exact (operands_stay_out_of_text select { take := some 5 } hshape rfl rfl).1

end Select

end Sql

end RecordQuery
