import RecordQuery.Proofs.Parts
import RecordQuery.Proofs.Requested

/-!
# Trees that are built again

A tree is an object of flags and descriptors, so it can be read as a field set. Each of its values
is read as a relation that becomes that value again in either mode: a flag stays one, an empty
object stays an empty map of nested relations, and any other object has only keys of a descriptor,
whatever the names in the tree are. A tree with entries is therefore built from what is read from
it. A list of empty maps asks for nothing and gives a tree without entries, which is read as a map
that no tree is built from.
-/

namespace RecordQuery

/-- The field sets right below a relation. -/
def Relation.inner : Relation → List FieldSet
  | .flag _ => []
  | .nested fields => [fields]
  | .described selected included _ => selected.toList ++ included.toList

namespace FieldSet

/-- The set is a list that has entries, all of them empty maps. -/
def Hollow : FieldSet → Prop
  | .list entries => entries ≠ [] ∧ ∀ entry ∈ entries, entry = .relations []
  | .map _ => False

/-- Neither the set nor any set below it is hollow. -/
inductive Solid : FieldSet → Prop where
  | intro {fields : FieldSet} (filled : ¬ fields.Hollow)
      (inner : ∀ name relation set, (name, relation) ∈ fields.asked → set ∈ relation.inner →
        Solid set) : Solid fields

theorem solid_ofNames (names : List String) : (ofNames names).Solid := by
  refine .intro ?_ ?_
  · rintro ⟨hne, hall⟩
    obtain ⟨entry, hentry⟩ := List.exists_mem_of_ne_nil _ hne
    obtain ⟨name, -, rfl⟩ := List.mem_map.mp hentry
    cases hall _ hentry
  · intro name relation set hasked hset
    obtain ⟨entry, hentry, hmem⟩ := List.mem_flatMap.mp hasked
    obtain ⟨field, -, rfl⟩ := List.mem_map.mp hentry
    cases List.mem_singleton.mp hmem
    cases hset

theorem asked_ne_nil {fields : FieldSet} (hfilled : ¬ fields.Hollow)
    (hempty : fields.isEmpty = false) : fields.asked ≠ [] := by
  cases fields with
  | list entries =>
    intro hasked
    refine hfilled ⟨?_, fun entry hentry => ?_⟩
    · rintro rfl
      cases hempty
    · have hnone : entry.asked = [] := List.flatMap_eq_nil_iff.mp hasked entry hentry
      cases entry with
      | field name => cases hnone
      | relations relations => exact congrArg FieldEntry.relations hnone
  | map relations =>
    rintro rfl
    cases hempty

theorem addTo_ne_nil {fields : FieldSet} (h : fields.asked ≠ []) (mode : Mode) :
    fields.addTo mode [] ≠ [] := by
  obtain ⟨⟨name, relation⟩, hasked⟩ := List.exists_mem_of_ne_nil _ h
  have hname : (fields.relation? name).isSome :=
    (Entries.isSome_get?_iff _ _).mpr (List.mem_map_of_mem (List.mem_reverse.mpr hasked))
  intro hnil
  have hget := get?_addTo mode fields name
  rw [hnil, Option.eq_some_of_isSome hname] at hget
  cases hget

theorem sorted_addTo (mode : Mode) (fields : FieldSet) :
    Entries.Sorted (fields.addTo mode []) := by
  rw [addTo_eq]
  exact Entries.Sorted.insertAll .nil _

theorem exists_relation_of_mem_tree {mode : Mode} {fields : FieldSet} {entry : String × Json}
    (h : entry ∈ fields.addTo mode []) :
    ∃ name relation, (name, relation) ∈ fields.asked ∧ entry.2 = relationTree mode relation := by
  have hget := (sorted_addTo mode fields).get?_of_mem h
  rw [get?_addTo] at hget
  obtain ⟨relation, hrelation, hvalue⟩ := Option.map_eq_some_iff.mp hget
  exact ⟨entry.1, relation, List.mem_reverse.mp (Entries.mem_of_get? hrelation), hvalue.symm⟩

/-- The value is read as a relation that becomes it in either mode. -/
def Rereads (value : Json) : Prop :=
  ∃ relation, readRelation value = .ok relation ∧ ∀ mode, relationTree mode relation = value

/-- The tree is read as a field set from which it is built in either mode. -/
def Rebuilt (tree : Fields) : Prop :=
  ∃ fields, ofJson (.obj tree) = .ok fields ∧ ∀ mode, tree? mode (some fields) = some tree

theorem rereads_flag (flag : Bool) : Rereads (.bool flag) := by
  refine ⟨.flag flag, ?_, fun mode => ?_⟩
  · rw [readRelation]
  · rw [relationTree]

theorem Rereads.isNull_eq {value : Json} (h : Rereads value) : value.isNull = false := by
  obtain ⟨relation, hread, -⟩ := h
  cases value with
  | null => simp [readRelation] at hread
  | _ => rfl

/-- Values that are read one by one are read as relations. -/
theorem exists_readRelations {entries : Fields} (h : ∀ entry ∈ entries, Rereads entry.2) :
    ∃ relations, readRelations entries = .ok relations ∧
      ∀ mode, relations.map (fun entry => (entry.1, relationTree mode entry.2)) = entries := by
  induction entries with
  | nil => exact ⟨[], by rw [readRelations], fun mode => rfl⟩
  | cons entry rest ih =>
    obtain ⟨name, value⟩ := entry
    obtain ⟨hvalue, hrest⟩ := List.forall_mem_cons.mp h
    obtain ⟨relations, hrelations, htrees⟩ := ih hrest
    obtain ⟨relation, hrelation, htree⟩ := hvalue
    refine ⟨(name, relation) :: relations, ?_, fun mode => ?_⟩
    · have hnull : value.isNull = false := Rereads.isNull_eq ⟨relation, hrelation, htree⟩
      simp [readRelations, hnull, hrelation, hrelations, Bind.bind, Except.bind, Pure.pure,
        Except.pure]
    · rw [List.map_cons, htrees mode, htree mode]

theorem rebuilt_of_rereads {tree : Fields} (hne : tree ≠ []) (hsorted : tree.Sorted)
    (h : ∀ entry ∈ tree, Rereads entry.2) : Rebuilt tree := by
  obtain ⟨relations, hread, htrees⟩ := exists_readRelations h
  refine ⟨.map relations, ?_, fun mode => ?_⟩
  · rw [ofJson, hread]
    rfl
  · have hempty : (FieldSet.map relations).isEmpty = false := by
      cases relations with
      | nil => exact absurd (htrees mode).symm hne
      | cons entry rest => rfl
    rw [tree?_of_not_isEmpty hempty, addTo_eq, asked, htrees mode]
    exact congrArg some hsorted.ofList_eq

theorem readAt_eq (key : String) (entries : Fields) :
    readAt key entries = match entries.get? key with
      | none => .ok none
      | some value => if value.isNull then .ok none else some <$> ofJson value := by
  induction entries with
  | nil => rw [readAt]; rfl
  | cons entry rest ih =>
    obtain ⟨name, value⟩ := entry
    rw [readAt, ih]
    by_cases hkey : key = name
    · simp only [hkey, if_true, Entries.get?]
      rfl
    · simp only [hkey, if_false, Entries.get?]

/-- A side that is absent or built again is read as what it is built from. -/
theorem exists_readAt {entries : Fields} {key : String} {side : Option Fields}
    (hkey : entries.get? key = side.map .obj) (h : ∀ tree ∈ side, Rebuilt tree) :
    ∃ fields, readAt key entries = .ok fields ∧ ∀ mode, tree? mode fields = side := by
  rw [readAt_eq, hkey]
  cases side with
  | none => exact ⟨none, rfl, fun mode => rfl⟩
  | some tree =>
    obtain ⟨fields, hread, htree⟩ := h tree rfl
    refine ⟨some fields, ?_, htree⟩
    change some <$> ofJson (.obj tree) = _
    rw [hread]
    rfl

theorem ofFields_descriptor {selected included : Option Fields} {arguments : RelationArguments}
    (h : ∀ key value, arguments.under? key = some value → value.isNull = false) :
    RelationArguments.ofFields (descriptor selected included arguments) = arguments := by
  have hpresent : ∀ key, key ≠ "select" → key ≠ "include" →
      Fields.present? (descriptor selected included arguments) key = arguments.under? key := by
    intro key hselect hinclude
    rw [Fields.present?, get?_descriptor, if_neg hselect, if_neg hinclude]
    cases hunder : arguments.under? key with
    | none => rfl
    | some value => simp [h key value hunder]
  simp only [RelationArguments.ofFields]
  rw [hpresent "where" (by decide) (by decide), hpresent "orderBy" (by decide) (by decide),
    hpresent "skip" (by decide) (by decide), hpresent "take" (by decide) (by decide)]
  rfl

theorem mem_descriptorKeys_of_get? {selected included : Option Fields}
    {arguments : RelationArguments} {key : String} {value : Json}
    (h : (descriptor selected included arguments).get? key = some value) :
    key ∈ descriptorKeys := by
  rw [get?_descriptor] at h
  split_ifs at h with hselect hinclude
  · simp [hselect, descriptorKeys]
  · simp [hinclude, descriptorKeys]
  · unfold RelationArguments.under? at h
    split at h
    · simp [descriptorKeys]
    · simp [descriptorKeys]
    · simp [descriptorKeys]
    · simp [descriptorKeys]
    · cases h

/-- A descriptor is recognised as one, unless it has no entries. -/
theorem isDescriptor_descriptor {selected included : Option Fields} {arguments : RelationArguments}
    (h : descriptor selected included arguments ≠ []) :
    isDescriptor (descriptor selected included arguments) = true := by
  obtain ⟨⟨key, value⟩, hentry⟩ := List.exists_mem_of_ne_nil _ h
  have hsorted : Entries.Sorted (descriptor selected included arguments) :=
    Entries.Sorted.insertAll .nil _
  have hget := hsorted.get?_of_mem hentry
  refine List.any_eq_true.mpr ⟨key, mem_descriptorKeys_of_get? hget, ?_⟩
  rw [Entries.contains, hget]
  rfl

theorem rereads_nil : Rereads (.obj []) := by
  refine ⟨.nested (.map []), ?_, fun mode => ?_⟩
  · rw [readRelation, if_neg (by decide), readRelations]
    rfl
  · rw [relationTree]
    rfl

/-- A descriptor is read again if its sides are built again and no argument is null. -/
theorem rereads_descriptor {selected included : Option Fields} {arguments : RelationArguments}
    (hselected : ∀ tree ∈ selected, Rebuilt tree) (hincluded : ∀ tree ∈ included, Rebuilt tree)
    (harguments : ∀ key value, arguments.under? key = some value → value.isNull = false) :
    Rereads (.obj (descriptor selected included arguments)) := by
  by_cases hnil : descriptor selected included arguments = []
  · rw [hnil]
    exact rereads_nil
  · obtain ⟨left, hleft, hselect⟩ :=
      exists_readAt (get?_descriptor selected included arguments "select") hselected
    obtain ⟨right, hright, hinclude⟩ :=
      exists_readAt (get?_descriptor selected included arguments "include") hincluded
    -- What is read is described in its own modes, so the mode around it does not matter.
    refine ⟨.described left right arguments, ?_, fun mode => ?_⟩
    · rw [readRelation, if_pos (isDescriptor_descriptor hnil), hleft, hright,
        ofFields_descriptor harguments]
      rfl
    · rw [relationTree_described, hselect, hinclude]

theorem under?_empty (key : String) : ({} : RelationArguments).under? key = none := by
  unfold RelationArguments.under?
  split
  all_goals rfl

/-- One side on its own is a descriptor. -/
theorem rereads_side (mode : Mode) {side : Option Fields} (h : ∀ tree ∈ side, Rebuilt tree) :
    Rereads (.obj (Arguments.present [(mode.key, side.map .obj)])) := by
  have harguments : ∀ key value, ({} : RelationArguments).under? key = some value →
      value.isNull = false := by
    intro key value hunder
    rw [under?_empty] at hunder
    cases hunder
  have hnothing : ∀ tree ∈ (none : Option Fields), Rebuilt tree := by
    rintro tree ⟨⟩
  cases side with
  | none => exact rereads_nil
  | some tree =>
    cases mode with
    | selection => exact rereads_descriptor h hnothing harguments
    | inclusion => exact rereads_descriptor hnothing h harguments

/-- The entries of a list that was read were read one by one. -/
theorem exists_of_mem_readRelations {source : Fields} {relations : List (String × Relation)}
    (hread : readRelations source = .ok relations) {name : String} {relation : Relation}
    (h : (name, relation) ∈ relations) : ∃ value, readRelation value = .ok relation := by
  induction source generalizing relations with
  | nil =>
    rw [readRelations] at hread
    obtain rfl := Except.ok.inj hread
    cases h
  | cons entry rest ih =>
    obtain ⟨key, value⟩ := entry
    rw [readRelations] at hread
    split at hread
    · exact ih hread h
    · obtain ⟨first, hfirst, hrest⟩ := (bind_eq_ok _ _ _).mp hread
      obtain ⟨others, hothers, heq⟩ := exists_of_bind_pure hrest
      subst heq
      rcases List.mem_cons.mp h with heq | hmem
      · cases heq
        exact ⟨value, hfirst⟩
      · exact ih hothers hmem

theorem exists_of_mem_readEntries {items : List Json} {entries : List FieldEntry}
    (hread : readEntries items = .ok entries) {name : String} {relation : Relation}
    (h : (name, relation) ∈ entries.flatMap FieldEntry.asked) :
    ∃ value, readRelation value = .ok relation := by
  induction items generalizing entries with
  | nil =>
    rw [readEntries] at hread
    obtain rfl := Except.ok.inj hread
    cases h
  | cons item rest ih =>
    cases item with
    | str field =>
      rw [readEntries] at hread
      obtain ⟨others, hothers, rfl⟩ := exists_of_bind_pure hread
      rcases List.mem_cons.mp h with heq | hmem
      · cases heq
        exact ⟨.bool true, by rw [readRelation]⟩
      · exact ih hothers hmem
    | obj source =>
      rw [readEntries] at hread
      obtain ⟨relations, hrelations, hrest⟩ := (bind_eq_ok _ _ _).mp hread
      obtain ⟨others, hothers, rfl⟩ := exists_of_bind_pure hrest
      rcases List.mem_append.mp h with hmem | hmem
      · exact exists_of_mem_readRelations hrelations hmem
      · exact ih hothers hmem
    | _ => simp [readEntries] at hread

/-- A relation that a set asks for was read, a field as a flag. -/
theorem exists_of_mem_asked {value : Json} {fields : FieldSet} (hread : ofJson value = .ok fields)
    {name : String} {relation : Relation} (h : (name, relation) ∈ fields.asked) :
    ∃ source, readRelation source = .ok relation := by
  cases value with
  | str field =>
    rw [ofJson] at hread
    obtain rfl := Except.ok.inj hread
    obtain ⟨-, rfl⟩ : name = field ∧ relation = .flag true := by
      simpa [ofNames, asked, FieldEntry.asked] using h
    exact ⟨.bool true, by rw [readRelation]⟩
  | arr items =>
    rw [ofJson] at hread
    obtain ⟨entries, hentries, rfl⟩ := exists_of_bind_pure hread
    exact exists_of_mem_readEntries hentries h
  | obj source =>
    rw [ofJson] at hread
    obtain ⟨relations, hrelations, rfl⟩ := exists_of_bind_pure hread
    exact exists_of_mem_readRelations hrelations h
  | _ => simp [ofJson] at hread

theorem exists_of_readAt {key : String} {entries : Fields} {set : FieldSet}
    (h : readAt key entries = .ok (some set)) : ∃ source, ofJson source = .ok set := by
  rw [readAt_eq] at h
  split at h
  · cases h
  · rename_i value hvalue
    split at h
    · cases h
    · obtain ⟨read, hread, hset⟩ := (map_eq_ok _ _ _).mp h
      obtain rfl := Option.some.inj hset
      exact ⟨value, hread⟩

/-- What a relation is read from. -/
theorem readRelation_cases {value : Json} {relation : Relation}
    (h : readRelation value = .ok relation) :
    (∃ flag, relation = .flag flag) ∨
      (∃ fields, relation = .nested fields ∧ ofJson value = .ok fields) ∨
      ∃ entries selected included, relation = .described selected included (.ofFields entries) ∧
        readAt "select" entries = .ok selected ∧ readAt "include" entries = .ok included := by
  cases value with
  | bool flag =>
    rw [readRelation] at h
    exact .inl ⟨flag, (Except.ok.inj h).symm⟩
  | str name =>
    rw [readRelation] at h
    exact .inr (.inl ⟨ofNames [name], (Except.ok.inj h).symm, by rw [ofJson]⟩)
  | arr items =>
    rw [readRelation] at h
    obtain ⟨entries, hentries, heq⟩ := exists_of_bind_pure h
    exact .inr (.inl ⟨.list entries, heq.symm, by rw [ofJson, hentries]; rfl⟩)
  | obj entries =>
    rw [readRelation] at h
    split at h
    · obtain ⟨selected, hselected, hrest⟩ := (bind_eq_ok _ _ _).mp h
      obtain ⟨included, hincluded, heq⟩ := exists_of_bind_pure hrest
      exact .inr (.inr ⟨entries, selected, included, heq.symm, hselected, hincluded⟩)
    · obtain ⟨relations, hrelations, heq⟩ := exists_of_bind_pure h
      exact .inr (.inl ⟨.map relations, heq.symm, by rw [ofJson, hrelations]; rfl⟩)
  | _ => simp [readRelation] at h

theorem exists_of_mem_inner {value : Json} {relation : Relation}
    (hread : readRelation value = .ok relation) {set : FieldSet} (h : set ∈ relation.inner) :
    ∃ source, ofJson source = .ok set := by
  obtain ⟨flag, rfl⟩ | ⟨fields, rfl, hfields⟩ |
    ⟨entries, selected, included, rfl, hselected, hincluded⟩ := readRelation_cases hread
  · cases h
  · obtain rfl := List.mem_singleton.mp h
    exact ⟨value, hfields⟩
  · rcases List.mem_append.mp h with hset | hset
    · rw [Option.mem_toList.mp hset] at hselected
      exact exists_of_readAt hselected
    · rw [Option.mem_toList.mp hset] at hincluded
      exact exists_of_readAt hincluded

/-- An argument that was found in a descriptor is not null. -/
theorem isNull_of_under? {entries : Fields} {key : String} {value : Json}
    (h : (RelationArguments.ofFields entries).under? key = some value) : value.isNull = false := by
  have hpresent : ∀ name, Fields.present? entries name = some value → value.isNull = false := by
    intro name hname
    simpa using (Option.filter_eq_some_iff.mp hname).2
  unfold RelationArguments.under? at h
  split at h
  · exact hpresent _ h
  · exact hpresent _ h
  · exact hpresent _ h
  · exact hpresent _ h
  · cases h

/-- What a relation that was read becomes is read again, if the trees below it are built again. -/
theorem rereads_relationTree {value : Json} {relation : Relation}
    (hread : readRelation value = .ok relation)
    (hinner : ∀ set ∈ relation.inner, ∀ mode, ∀ tree ∈ tree? mode (some set), Rebuilt tree)
    (mode : Mode) : Rereads (relationTree mode relation) := by
  have hside : ∀ side : Option FieldSet, side.toList ⊆ relation.inner →
      ∀ mode, ∀ tree ∈ tree? mode side, Rebuilt tree := by
    intro side hsubset mode tree htree
    obtain ⟨set, rfl, -, -⟩ := exists_of_tree? htree
    exact hinner set (hsubset List.mem_cons_self) mode tree htree
  obtain ⟨flag, rfl⟩ | ⟨fields, rfl, -⟩ | ⟨entries, selected, included, rfl, -, -⟩ :=
    readRelation_cases hread
  · rw [relationTree]
    exact rereads_flag flag
  · rw [relationTree_nested]
    exact rereads_side mode (hside (some fields) (List.Subset.refl _) mode)
  · rw [relationTree_described]
    exact rereads_descriptor (hside selected (List.subset_append_left _ _) .selection)
      (hside included (List.subset_append_right _ _) .inclusion) fun _ _ => isNull_of_under?

/-- The tree of a hollow list is there without entries, and is not built again. -/
theorem not_rebuilt_of_hollow {fields : FieldSet} (h : fields.Hollow) (mode : Mode) :
    tree? mode (some fields) = some [] ∧ ¬ Rebuilt [] := by
  constructor
  · cases fields with
    | list entries =>
      have hempty : (FieldSet.list entries).isEmpty = false := List.isEmpty_eq_false_iff.mpr h.1
      have hasked : (FieldSet.list entries).asked = [] :=
        List.flatMap_eq_nil_iff.mpr fun entry hentry => by
          rw [h.2 entry hentry, FieldEntry.asked]
      rw [tree?_of_not_isEmpty hempty, addTo_eq, hasked]
      rfl
    | map relations => exact h.elim
  · rintro ⟨again, hread, htree⟩
    rw [ofJson, readRelations] at hread
    obtain rfl := Except.ok.inj hread
    cases htree mode

/-- The tree that is built from a set without hollow lists is read as a set from which it is built
again, in whatever mode. -/
theorem built_trees_are_native {value : Json} {fields : FieldSet}
    (hread : ofJson value = .ok fields) (hsolid : fields.Solid) {mode : Mode} {tree : Fields}
    (htree : tree? mode (some fields) = some tree) :
    ∃ again, ofJson (.obj tree) = .ok again ∧ ∀ other, tree? other (some again) = some tree := by
  induction hsolid generalizing value mode tree with
  | @intro fields filled inner ih =>
    obtain ⟨set, hset, hempty, rfl⟩ := exists_of_tree? htree
    obtain rfl := Option.some.inj hset
    have hne := addTo_ne_nil (asked_ne_nil filled hempty) mode
    refine rebuilt_of_rereads hne (sorted_addTo mode fields) fun entry hentry => ?_
    obtain ⟨name, relation, hasked, hvalue⟩ := exists_relation_of_mem_tree hentry
    -- The relation was read, so the sets below it were, and the induction gives their trees.
    obtain ⟨source, hsource⟩ := exists_of_mem_asked hread hasked
    rw [hvalue]
    refine rereads_relationTree hsource ?_ mode
    intro set hset mode sub hsub
    obtain ⟨below, hbelow⟩ := exists_of_mem_inner hsource hset
    exact ih name relation set hasked hset hbelow hsub

/-- Relations may be named like the keys of a descriptor. -/
theorem built_trees_are_native_named_like_keys :
    let value : Json := .obj [("select", .arr [.str "include"]),
      ("where", .obj [("select", .str "take"), ("take", .int 1)])]
    let fields : FieldSet := .map [("select", .nested (ofNames ["include"])),
      ("where", .described (some (ofNames ["take"])) none { take := some (.int 1) })]
    let tree : Fields := [("select", .obj [("select", .obj [("include", true)])]),
      ("where", .obj [("select", .obj [("take", true)]), ("take", .int 1)])]
    ofJson value = .ok fields ∧ fields.Solid ∧ tree? .selection (some fields) = some tree ∧
      ∃ again, ofJson (.obj tree) = .ok again ∧ ∀ mode, tree? mode (some again) = some tree := by
  intro value fields tree
  have hread : ofJson value = .ok fields := rfl
  have htree : tree? .selection (some fields) = some tree := rfl
  have hsolid : fields.Solid := by
    refine .intro id fun name relation set hasked hset => ?_
    rcases List.mem_cons.mp hasked with heq | hrest
    · cases heq
      rw [List.mem_singleton.mp hset]
      exact solid_ofNames _
    · cases List.mem_singleton.mp hrest
      rw [List.mem_singleton.mp hset]
      exact solid_ofNames _
  exact ⟨hread, hsolid, htree, built_trees_are_native hread hsolid htree⟩

end FieldSet

end RecordQuery
