import RecordQuery.Proofs.Ordered
import RecordQuery.Proofs.Requested

/-!
# The leaves of a merged condition

A leaf is a value other than an object that stands at a path of keys. When a condition without
clauses is merged into another one, each leaf of the result is a leaf of one side and stands where
it stood there, or under the equality of that place if the other side has an object there. All
leaves that come in are kept. Of those that were there before, only those are lost whose place the
incoming side takes, by a leaf at the place, by an entry for the equality that the leaf would
become, or by a leaf that becomes the equality at or above the place.
-/

namespace RecordQuery

namespace Json

/-- What stands at a path of keys. -/
def under? (path : List String) (value : Json) : Option Json := value.along? (path.map .key)

/-- A value other than an object stands at the path. -/
def Leaf (whole : Json) (path : List String) (leaf : Json) : Prop :=
  whole.under? path = some leaf ∧ leaf.isObj = false

/-- No key of an object is a logical one, at any depth of objects. -/
inductive Clauseless : Json → Prop where
  | plain {value : Json} (h : value.isObj = false) : Clauseless value
  | obj {entries : Fields} (keys : ∀ entry ∈ entries, ¬ Where.Logical entry.1)
      (values : ∀ entry ∈ entries, Clauseless entry.2) : Clauseless (.obj entries)

theorem clauseless_obj {entries : Fields} (h : (Json.obj entries).Clauseless) :
    (∀ entry ∈ entries, ¬ Where.Logical entry.1) ∧ ∀ entry ∈ entries, entry.2.Clauseless := by
  cases h with
  | plain hplain => cases hplain
  | obj hkeys hvalues => exact ⟨hkeys, hvalues⟩

theorem under?_cons (entries : Fields) (key : String) (rest : List String) :
    (Json.obj entries).under? (key :: rest) = (entries.get? key).bind (under? rest) :=
  rfl

theorem under?_cons_of_plain {value : Json} (h : value.isObj = false) (key : String)
    (rest : List String) : value.under? (key :: rest) = none := by
  cases value with
  | obj entries => cases h
  | _ => rfl

theorem leaf_of_plain {whole : Json} (h : whole.isObj = false) (path : List String) (leaf : Json) :
    whole.Leaf path leaf ↔ path = [] ∧ whole = leaf := by
  constructor
  · rintro ⟨hfound, -⟩
    cases path with
    | nil => exact ⟨rfl, Option.some.inj hfound⟩
    | cons key rest =>
      rw [under?_cons_of_plain h] at hfound
      cases hfound
  · rintro ⟨rfl, rfl⟩
    exact ⟨rfl, h⟩

theorem not_leaf_nil (entries : Fields) (leaf : Json) : ¬ (Json.obj entries).Leaf [] leaf := by
  rintro ⟨hfound, hplain⟩
  obtain rfl := Option.some.inj hfound
  cases hplain

theorem leaf_cons_iff (entries : Fields) (key : String) (rest : List String) (leaf : Json) :
    (Json.obj entries).Leaf (key :: rest) leaf ↔
      ∃ held, entries.get? key = some held ∧ held.Leaf rest leaf := by
  rw [Leaf, under?_cons, Option.bind_eq_some_iff]
  constructor
  · rintro ⟨⟨held, hheld, hfound⟩, hplain⟩
    exact ⟨held, hheld, hfound, hplain⟩
  · rintro ⟨held, hheld, hfound, hplain⟩
    exact ⟨⟨held, hheld, hfound⟩, hplain⟩

theorem Leaf.exists_cons {entries : Fields} {path : List String} {leaf : Json}
    (h : (Json.obj entries).Leaf path leaf) :
    ∃ key rest held, path = key :: rest ∧ entries.get? key = some held ∧ held.Leaf rest leaf := by
  cases path with
  | nil => exact absurd h (not_leaf_nil entries leaf)
  | cons key rest =>
    obtain ⟨held, hheld, hleaf⟩ := (leaf_cons_iff entries key rest leaf).mp h
    exact ⟨key, rest, held, rfl, hheld, hleaf⟩

end Json

namespace Where

/-- Where a leaf goes: under the equality of its place if the other side has an object there. -/
def placeBeside (other : Json) (path : List String) : List String :=
  if (other.under? path).any Json.isObj then path ++ [equality] else path

/-- What comes in takes the place of what stood at the path: it has a leaf there, it has an entry of
its own where the former leaf would become an equality, or a leaf of its own becomes the equality
that the path leads to or through. -/
inductive Overruled (incoming : Json) (path : List String) : Prop where
  | plain (leaf : Json) (at_path : incoming.Leaf path leaf)
  | equated (value : Json) (at_equality : incoming.under? (path ++ [equality]) = some value)
  | covered (upper : List String) (leaf : Json) (at_upper : incoming.Leaf upper leaf)
      (below : upper ++ [equality] <+: path)

theorem placeBeside_of_plain {other : Json} (h : other.isObj = false) (path : List String) :
    placeBeside other path = path := by
  cases path with
  | nil => simp [placeBeside, Json.under?, Json.along?, h]
  | cons key rest => simp [placeBeside, Json.under?_cons_of_plain h]

theorem placeBeside_nil (entries : Fields) : placeBeside (.obj entries) [] = [equality] := rfl

theorem placeBeside_cons (entries : Fields) (key : String) (rest : List String) :
    placeBeside (.obj entries) (key :: rest) =
      key :: (entries.get? key).elim rest (placeBeside · rest) := by
  cases hheld : entries.get? key with
  | none => simp [placeBeside, Json.under?_cons, hheld]
  | some held =>
    simp only [placeBeside, Json.under?_cons, hheld, Option.bind_some, Option.elim_some]
    split <;> rfl

theorem overruled_of_plain {incoming : Json} (h : incoming.isObj = false) (path : List String) :
    Overruled incoming path ↔ path = [] ∨ [equality] <+: path := by
  constructor
  · rintro (⟨leaf, hleaf⟩ | ⟨value, hvalue⟩ | ⟨upper, leaf, hleaf, hbelow⟩)
    · exact .inl ((Json.leaf_of_plain h path leaf).mp hleaf).1
    · cases path with
      | nil => rw [List.nil_append, Json.under?_cons_of_plain h] at hvalue; cases hvalue
      | cons key rest => rw [List.cons_append, Json.under?_cons_of_plain h] at hvalue; cases hvalue
    · obtain ⟨rfl, -⟩ := (Json.leaf_of_plain h upper leaf).mp hleaf
      exact .inr hbelow
  · have hleaf : incoming.Leaf [] incoming := ⟨rfl, h⟩
    rintro (rfl | hbelow)
    · exact .plain incoming hleaf
    · exact .covered [] incoming hleaf hbelow

theorem overruled_nil_iff (entries : Fields) :
    Overruled (.obj entries) [] ↔ entries.get? equality ≠ none := by
  constructor
  · rintro (⟨leaf, hleaf⟩ | ⟨value, hvalue⟩ | ⟨upper, leaf, -, hbelow⟩)
    · exact absurd hleaf (Json.not_leaf_nil entries leaf)
    · intro hnone
      rw [List.nil_append, Json.under?_cons, hnone] at hvalue
      cases hvalue
    · exact absurd (List.prefix_nil.mp hbelow) (by simp)
  · intro hsome
    obtain ⟨value, hvalue⟩ := Option.ne_none_iff_exists'.mp hsome
    refine .equated value ?_
    rw [List.nil_append, Json.under?_cons, hvalue]
    rfl

/-- Below a key it is told by what comes in under that key. -/
theorem overruled_cons_iff (entries : Fields) (key : String) (rest : List String) :
    Overruled (.obj entries) (key :: rest) ↔
      ∃ held, entries.get? key = some held ∧ Overruled held rest := by
  constructor
  · rintro (⟨leaf, hleaf⟩ | ⟨value, hvalue⟩ | ⟨upper, leaf, hleaf, hbelow⟩)
    · obtain ⟨held, hheld, hrest⟩ := (Json.leaf_cons_iff entries key rest leaf).mp hleaf
      exact ⟨held, hheld, .plain leaf hrest⟩
    · rw [List.cons_append, Json.under?_cons] at hvalue
      obtain ⟨held, hheld, hrest⟩ := Option.bind_eq_some_iff.mp hvalue
      exact ⟨held, hheld, .equated value hrest⟩
    · obtain ⟨first, inner, held, rfl, hheld, hrest⟩ := hleaf.exists_cons
      obtain ⟨rfl, hinner⟩ := List.cons_prefix_cons.mp hbelow
      exact ⟨held, hheld, .covered inner leaf hrest hinner⟩
  · rintro ⟨held, hheld, ⟨leaf, hleaf⟩ | ⟨value, hvalue⟩ | ⟨upper, leaf, hleaf, hbelow⟩⟩
    · exact .plain leaf ((Json.leaf_cons_iff entries key rest leaf).mpr ⟨held, hheld, hleaf⟩)
    · refine .equated value ?_
      rw [List.cons_append, Json.under?_cons, hheld]
      exact hvalue
    · refine .covered (key :: upper) leaf ?_ (List.cons_prefix_cons.mpr ⟨rfl, hbelow⟩)
      exact (Json.leaf_cons_iff entries key upper leaf).mpr ⟨held, hheld, hleaf⟩

/-- The leaf comes to the path from the incoming side, or from the existing one without being
overruled. -/
def Brought (existing incoming : Json) (path : List String) (leaf : Json) : Prop :=
  (∃ origin, incoming.Leaf origin leaf ∧ placeBeside existing origin = path) ∨
    ∃ origin, existing.Leaf origin leaf ∧ ¬ Overruled incoming origin ∧
      placeBeside incoming origin = path

/-- An equality that is entered stands in the place of what was under its key. -/
theorem leaf_insert_equality (entries : Fields) {value : Json} (h : value.isObj = false)
    (path : List String) (leaf : Json) :
    (Json.obj (entries.insert equality value)).Leaf path leaf ↔
      path = [equality] ∧ value = leaf ∨
        (Json.obj entries).Leaf path leaf ∧ ¬ [equality] <+: path := by
  cases path with
  | nil => simp [Json.not_leaf_nil]
  | cons key rest =>
    rw [Json.leaf_cons_iff, Json.leaf_cons_iff]
    by_cases hkey : key = equality
    · subst hkey
      simp [Json.leaf_of_plain h]
    · rw [Entries.get?_insert_of_ne entries value hkey]
      simp [hkey, Ne.symm hkey]

theorem leaf_mergeCondition_plain {existing incoming : Json} (hexisting : existing.isObj = false)
    (hincoming : incoming.isObj = false) (path : List String) (leaf : Json) :
    (mergeCondition existing incoming).Leaf path leaf ↔ Brought existing incoming path leaf := by
  rw [mergeCondition_plain hexisting hincoming, Json.leaf_of_plain hincoming]
  constructor
  · rintro ⟨rfl, rfl⟩
    exact .inl ⟨[], ⟨rfl, hincoming⟩, placeBeside_of_plain hexisting []⟩
  · rintro (⟨origin, hleaf, rfl⟩ | ⟨origin, hleaf, hkept, -⟩)
    · rw [placeBeside_of_plain hexisting]
      exact (Json.leaf_of_plain hincoming origin leaf).mp hleaf
    · obtain ⟨rfl, -⟩ := (Json.leaf_of_plain hexisting origin leaf).mp hleaf
      exact absurd ((overruled_of_plain hincoming []).mpr (.inl rfl)) hkept

/-- A plain value that meets an object becomes its equality. -/
theorem leaf_mergeCondition_obj_plain (entries : Fields) {incoming : Json}
    (hincoming : incoming.isObj = false) (path : List String) (leaf : Json) :
    (mergeCondition (.obj entries) incoming).Leaf path leaf ↔
      Brought (.obj entries) incoming path leaf := by
  rw [mergeCondition_obj_plain entries hincoming, leaf_insert_equality entries hincoming]
  constructor
  · rintro (⟨rfl, rfl⟩ | ⟨hleaf, hbeside⟩)
    · exact .inl ⟨[], ⟨rfl, hincoming⟩, placeBeside_nil entries⟩
    · refine .inr ⟨path, hleaf, ?_, placeBeside_of_plain hincoming path⟩
      rw [overruled_of_plain hincoming]
      rintro (rfl | hbelow)
      · exact Json.not_leaf_nil entries leaf hleaf
      · exact hbeside hbelow
  · rintro (⟨origin, hleaf, rfl⟩ | ⟨origin, hleaf, hkept, rfl⟩)
    · obtain ⟨rfl, rfl⟩ := (Json.leaf_of_plain hincoming origin leaf).mp hleaf
      exact .inl ⟨placeBeside_nil entries, rfl⟩
    · rw [placeBeside_of_plain hincoming]
      rw [overruled_of_plain hincoming] at hkept
      exact .inr ⟨hleaf, fun hbelow => hkept (.inr hbelow)⟩

/-- A plain value that an object meets becomes its equality unless it has one. -/
theorem leaf_mergeCondition_plain_obj {existing : Json} (hexisting : existing.isObj = false)
    (entries : Fields) (path : List String) (leaf : Json) :
    (mergeCondition existing (.obj entries)).Leaf path leaf ↔
      Brought existing (.obj entries) path leaf := by
  have hbrought : Brought existing (.obj entries) path leaf ↔ (Json.obj entries).Leaf path leaf ∨
      existing = leaf ∧ entries.get? equality = none ∧ path = [equality] := by
    constructor
    · rintro (⟨origin, hleaf, rfl⟩ | ⟨origin, hleaf, hkept, rfl⟩)
      · rw [placeBeside_of_plain hexisting]
        exact .inl hleaf
      · obtain ⟨rfl, rfl⟩ := (Json.leaf_of_plain hexisting origin leaf).mp hleaf
        rw [overruled_nil_iff, not_not] at hkept
        exact .inr ⟨rfl, hkept, placeBeside_nil entries⟩
    · rintro (hleaf | ⟨rfl, habsent, rfl⟩)
      · exact .inl ⟨path, hleaf, placeBeside_of_plain hexisting path⟩
      · refine .inr ⟨[], ⟨rfl, hexisting⟩, ?_, placeBeside_nil entries⟩
        rw [overruled_nil_iff, not_not]
        exact habsent
  rw [hbrought]
  cases hequal : entries.get? equality with
  | some value =>
    rw [mergeCondition_plain_obj_of_some hexisting hequal]
    simp
  | none =>
    have hbeside : (Json.obj entries).Leaf path leaf → ¬ [equality] <+: path := by
      intro hleaf hbelow
      obtain ⟨key, rest, held, rfl, hheld, -⟩ := hleaf.exists_cons
      obtain ⟨rfl, -⟩ := List.cons_prefix_cons.mp hbelow
      rw [hequal] at hheld
      cases hheld
    rw [mergeCondition_plain_obj hexisting hequal, leaf_insert_equality entries hexisting]
    constructor
    · rintro (⟨rfl, rfl⟩ | ⟨hleaf, -⟩)
      · exact .inr ⟨rfl, rfl, rfl⟩
      · exact .inl hleaf
    · rintro (hleaf | ⟨rfl, -, rfl⟩)
      · exact .inr ⟨hleaf, hbeside hleaf⟩
      · exact .inl ⟨rfl, rfl⟩

theorem placeBeside_ne_nil (entries : Fields) (path : List String) :
    placeBeside (.obj entries) path ≠ [] := by
  cases path with
  | nil => simp [placeBeside_nil]
  | cons key rest => simp [placeBeside_cons]

theorem not_brought_nil (entries more : Fields) (leaf : Json) :
    ¬ Brought (.obj entries) (.obj more) [] leaf := by
  rintro (⟨origin, -, hplace⟩ | ⟨origin, -, -, hplace⟩)
  · exact placeBeside_ne_nil entries origin hplace
  · exact placeBeside_ne_nil more origin hplace

/-- A leaf of an object that comes to a place under a key stood under that key. -/
theorem exists_of_placeBeside {entries others : Fields} {origin rest : List String} {key : String}
    {leaf : Json} (hleaf : (Json.obj entries).Leaf origin leaf)
    (hplace : placeBeside (.obj others) origin = key :: rest) :
    ∃ inner held, origin = key :: inner ∧ entries.get? key = some held ∧ held.Leaf inner leaf ∧
      (others.get? key).elim inner (placeBeside · inner) = rest := by
  obtain ⟨first, inner, held, rfl, hheld, hinner⟩ := hleaf.exists_cons
  rw [placeBeside_cons] at hplace
  obtain ⟨rfl, hrest⟩ := List.cons.inj hplace
  exact ⟨inner, held, rfl, hheld, hinner, hrest⟩

/-- What is brought under a key comes from what the two sides have there. -/
theorem brought_cons_iff (entries more : Fields) (key : String) (rest : List String)
    (leaf : Json) :
    Brought (.obj entries) (.obj more) (key :: rest) leaf ↔
      (∃ inner held, more.get? key = some held ∧ held.Leaf inner leaf ∧
        (entries.get? key).elim inner (placeBeside · inner) = rest) ∨
      ∃ inner held, entries.get? key = some held ∧ held.Leaf inner leaf ∧
        (∀ value, more.get? key = some value → ¬ Overruled value inner) ∧
        (more.get? key).elim inner (placeBeside · inner) = rest := by
  have hunder : ∀ {fields : Fields} {inner : List String} {held : Json},
      fields.get? key = some held → held.Leaf inner leaf →
      (Json.obj fields).Leaf (key :: inner) leaf :=
    fun hheld hinner => (Json.leaf_cons_iff _ key _ leaf).mpr ⟨_, hheld, hinner⟩
  constructor
  · rintro (⟨origin, hleaf, hplace⟩ | ⟨origin, hleaf, hkept, hplace⟩)
    · obtain ⟨inner, held, rfl, hheld, hinner, hrest⟩ := exists_of_placeBeside hleaf hplace
      exact .inl ⟨inner, held, hheld, hinner, hrest⟩
    · obtain ⟨inner, held, rfl, hheld, hinner, hrest⟩ := exists_of_placeBeside hleaf hplace
      refine .inr ⟨inner, held, hheld, hinner, fun value hvalue hover => hkept ?_, hrest⟩
      exact (overruled_cons_iff more key inner).mpr ⟨value, hvalue, hover⟩
  · rintro (⟨inner, held, hheld, hinner, rfl⟩ | ⟨inner, held, hheld, hinner, hkept, rfl⟩)
    · exact .inl ⟨key :: inner, hunder hheld hinner, placeBeside_cons entries key inner⟩
    · have hplace := placeBeside_cons more key inner
      refine .inr ⟨key :: inner, hunder hheld hinner, fun hover => ?_, hplace⟩
      obtain ⟨value, hvalue, hbelow⟩ := (overruled_cons_iff more key inner).mp hover
      exact hkept value hvalue hbelow

/-- The recursion is on the path, as the two sides are merged key by key. -/
theorem leaf_mergeCondition_iff {incoming : Json} (hincoming : incoming.Ordered)
    (hfree : incoming.Clauseless) (existing : Json) (path : List String) (leaf : Json) :
    (mergeCondition existing incoming).Leaf path leaf ↔ Brought existing incoming path leaf := by
  cases incoming with
  | obj more =>
    cases existing with
    | obj entries =>
      obtain ⟨hkeys, hvalues⟩ := Json.clauseless_obj hfree
      rw [mergeCondition_obj]
      cases path with
      | nil => exact iff_of_false (Json.not_leaf_nil _ leaf) (not_brought_nil entries more leaf)
      | cons key rest =>
        rw [Json.leaf_cons_iff, brought_cons_iff]
        cases hvalue : Entries.get? more key with
        | none =>
          rw [get?_merge_of_absent entries hkeys hvalue]
          simp
        | some value =>
          have hmem := Entries.mem_of_get? hvalue
          rw [get?_merge_of_get?_eq_some entries hincoming.sorted (hkeys _ hmem) hvalue]
          cases Entries.get? entries key with
          | none => simp [mergeInto]
          | some present =>
            have hunder := leaf_mergeCondition_iff (hincoming.of_get? hvalue) (hvalues _ hmem)
              present rest leaf
            simpa [mergeInto, Brought] using hunder
    | _ => exact leaf_mergeCondition_plain_obj rfl more path leaf
  | _ =>
    cases existing with
    | obj entries => exact leaf_mergeCondition_obj_plain entries rfl path leaf
    | _ => exact leaf_mergeCondition_plain rfl rfl path leaf
termination_by path.length

/-- Merging a condition without clauses into any other unites the leaves of both sides, and the
incoming side has its way: all its leaves are in the result, those of the existing side unless they
are overruled, each at its place or under the equality of it, and the result has no others. -/
theorem merging_unites_leaves {incoming : Json} (hincoming : incoming.Ordered)
    (hfree : incoming.Clauseless) (existing : Json) :
    (∀ path leaf, incoming.Leaf path leaf →
      (mergeCondition existing incoming).Leaf (placeBeside existing path) leaf) ∧
    (∀ path leaf, existing.Leaf path leaf → ¬ Overruled incoming path →
      (mergeCondition existing incoming).Leaf (placeBeside incoming path) leaf) ∧
    ∀ path leaf, (mergeCondition existing incoming).Leaf path leaf →
      (∃ origin, incoming.Leaf origin leaf ∧ path = placeBeside existing origin) ∨
        ∃ origin, existing.Leaf origin leaf ∧ ¬ Overruled incoming origin ∧
          path = placeBeside incoming origin := by
  refine ⟨fun path leaf hleaf => ?_, fun path leaf hleaf hkept => ?_, fun path leaf hleaf => ?_⟩
  · apply (leaf_mergeCondition_iff hincoming hfree existing _ leaf).mpr
    exact .inl ⟨path, hleaf, rfl⟩
  · apply (leaf_mergeCondition_iff hincoming hfree existing _ leaf).mpr
    exact .inr ⟨path, hleaf, hkept, rfl⟩
  · rcases (leaf_mergeCondition_iff hincoming hfree existing path leaf).mp hleaf with
      ⟨origin, horigin, hplace⟩ | ⟨origin, horigin, hkept, hplace⟩
    · exact .inl ⟨origin, horigin, hplace.symm⟩
    · exact .inr ⟨origin, horigin, hkept, hplace.symm⟩

/-- An equality that comes in takes the place of all that stood under the one before, and a plain
value that meets operators stands beside them, whichever side it is on. -/
theorem merging_unites_leaves_below_equality :
    let existing : Json := .obj [("age", .obj [("equals", .obj [("unit", .str "day")]),
      ("lt", .int 9)]), ("name", .str "a"), ("rank", .int 1)]
    let incoming : Json := .obj [("age", .int 7), ("name", .obj [("contains", .str "b")]),
      ("rank", .obj [("equals", .int 2)])]
    incoming.Ordered ∧ incoming.Clauseless ∧
      (mergeCondition existing incoming).Leaf ["age", "equals"] (.int 7) ∧
      (mergeCondition existing incoming).Leaf ["age", "lt"] (.int 9) ∧
      (mergeCondition existing incoming).Leaf ["name", "equals"] (.str "a") ∧
      Overruled incoming ["age", "equals", "unit"] ∧ Overruled incoming ["rank"] := by
  intro existing incoming
  have hincoming : incoming.Ordered := by decide
  have hfree : incoming.Clauseless := by
    refine .obj (by decide) ?_
    simp only [List.forall_mem_cons, List.not_mem_nil, false_implies, implies_true, and_true]
    exact ⟨.plain rfl, .obj (by decide) (by simpa using .plain rfl),
      .obj (by decide) (by simpa using .plain rfl)⟩
  have hage : Overruled incoming ["age", "equals", "unit"] :=
    .covered ["age"] (.int 7) ⟨rfl, rfl⟩ ⟨["unit"], rfl⟩
  have hrank : Overruled incoming ["rank"] := .equated (.int 2) rfl
  have hbound : ¬ Overruled incoming ["age", "lt"] := by
    rw [overruled_cons_iff]
    rintro ⟨held, hheld, hover⟩
    obtain rfl := Option.some.inj hheld
    exact absurd ((overruled_of_plain rfl _).mp hover) (by decide)
  have hname : ¬ Overruled incoming ["name"] := by
    rw [overruled_cons_iff]
    rintro ⟨held, hheld, hover⟩
    obtain rfl := Option.some.inj hheld
    exact (overruled_nil_iff _).mp hover rfl
  obtain ⟨hnew, hkept, -⟩ := merging_unites_leaves hincoming hfree existing
  exact ⟨hincoming, hfree, hnew ["age"] (.int 7) ⟨rfl, rfl⟩,
    hkept ["age", "lt"] (.int 9) ⟨rfl, rfl⟩ hbound,
    hkept ["name"] (.str "a") ⟨rfl, rfl⟩ hname, hage, hrank⟩

end Where

end RecordQuery
