import RecordQuery.Proofs.Boundary
import RecordQuery.Proofs.Reread
import RecordQuery.Sql.Statement

/-!
# Precedence in a sort list

The entries of a sort list keep their order in every form that it takes: as an object in source
order, where a field may stand twice, as a native ordering, whose objects have one entry each, and
as the ordering of arguments that have been written, read back and taken over by a statement.
-/

namespace RecordQuery

namespace SortList

theorem decode_name (direction : Direction) :
    Direction.decode (.str direction.name) = .ok direction := by
  cases direction <;> rfl

/-- One entry as an object of its own. -/
def single (entry : String × Direction) : Json := .obj [(entry.1, .str entry.2.name)]

theorem ofNative_single (entry : String × Direction) : ofNative (single entry) = [entry] := by
  simp [single, ofNative, ofEntry?, Direction.ofName?_name]

theorem ofNativeItems_singles (sort : SortList) : ofNativeItems (sort.map single) = sort := by
  induction sort with
  | nil => rfl
  | cons entry rest ih =>
    rw [List.map_cons, ofNativeItems, ofNative_single, ih, List.singleton_append]

/-- A single entry is written as its object, and any other number of them as a list. -/
theorem toNative_eq (sort : SortList) :
    (∃ entry, sort = [entry] ∧ sort.toNative = single entry) ∨
      sort.toNative = .arr (sort.map single) := by
  obtain _ | ⟨first, _ | ⟨second, rest⟩⟩ := sort
  · exact .inr rfl
  · exact .inl ⟨first, rfl, rfl⟩
  · exact .inr rfl

theorem ofNative_toNative (sort : SortList) : ofNative sort.toNative = sort := by
  rcases sort.toNative_eq with ⟨entry, rfl, hnative⟩ | hnative
  · rw [hnative, ofNative_single]
  · rw [hnative, ofNative, ofNativeItems_singles]

/-- The entries of an object in source order. -/
def sourceEntries (sort : SortList) : Fields := sort.map fun (field, d) => (field, .str d.name)

theorem readEntries_sourceEntries (sort : SortList) :
    readEntries (Doc.ofEntries sort.sourceEntries) = .ok sort := by
  induction sort with
  | nil => rfl
  | cons entry rest ih =>
    rw [sourceEntries] at ih
    rw [sourceEntries, List.map_cons, Doc.ofEntries, Doc.ofJson, readEntries, decode_name, ih]
    rfl

theorem decodeItem_single (entry : String × Direction) :
    decodeItem (.ofJson (single entry)) = .ok [entry] := by
  have hread := readEntries_sourceEntries [entry]
  rw [single, Doc.ofJson, decodeItem, decodeObject]
  rw [sourceEntries, List.map_singleton] at hread
  rw [hread]
  rfl

theorem mapM_decodeItem (sort : SortList) :
    (Doc.ofItems (sort.map single)).mapM decodeItem = .ok (sort.map ([·])) := by
  induction sort with
  | nil => rfl
  | cons entry rest ih =>
    rw [List.map_cons, Doc.ofItems, List.mapM_cons, decodeItem_single, ih]
    rfl

theorem decode_toNative (sort : SortList) : sort.toNative.decode decode = .ok sort := by
  rcases sort.toNative_eq with ⟨entry, rfl, hnative⟩ | hnative
  · have hread := readEntries_sourceEntries [entry]
    rw [sourceEntries, List.map_singleton] at hread
    rw [hnative, single, Json.decode, Doc.ofJson, decode, decodeObject, hread]
    rfl
  · have hflat : (sort.map ([·])).flatten = sort := List.flatMap_singleton' sort
    rw [hnative, Json.decode, Doc.ofJson, decode, mapM_decodeItem]
    exact congrArg Except.ok hflat

theorem rereadEntries_sourceEntries (depth : Nat) (sort : SortList) :
    Doc.rereadEntries depth sort.sourceEntries = Doc.ofEntries sort.sourceEntries := by
  rw [Doc.rereadEntries_eq_map, Doc.ofEntries_eq_map, sourceEntries, List.map_map, List.map_map]
  rfl

theorem decodeText_sourceForm (sort : SortList) :
    decodeText decode sort.sourceForm.compact = .ok sort := by
  have hdoc : Doc.reread 0 sort.sourceForm = .obj (Doc.ofEntries sort.sourceEntries) none := by
    rw [← rereadEntries_sourceEntries 1]
    rfl
  have hread : decode (.obj (Doc.ofEntries sort.sourceEntries) none) = .ok sort := by
    rw [decode, decodeObject, readEntries_sourceEntries]
    rfl
  rw [decodeText_compact_eq_ok_iff, hdoc, hread]

theorem reread_single {depth : Nat} (h : depth < Reading.depthLimit) (entry : String × Direction) :
    Doc.reread depth (single entry) = .ofJson (single entry) := by
  have hentry := rereadEntries_sourceEntries (depth + 1) [entry]
  rw [sourceEntries, List.map_singleton] at hentry
  rw [single, Doc.reread, Doc.within, if_pos h, hentry, Doc.ofJson]

theorem rereadItems_singles {depth : Nat} (h : depth < Reading.depthLimit) (sort : SortList) :
    Doc.rereadItems depth (sort.map single) = Doc.ofItems (sort.map single) := by
  induction sort with
  | nil => rfl
  | cons entry rest ih =>
    rw [List.map_cons, Doc.rereadItems, Doc.ofItems, reread_single h, ih]

/-- The native form has no number and two levels only, so its text is read as it was. -/
theorem reread_toNative {depth : Nat} (h : depth + 1 < Reading.depthLimit) (sort : SortList) :
    Doc.reread depth sort.toNative = .ofJson sort.toNative := by
  rcases sort.toNative_eq with ⟨entry, rfl, hnative⟩ | hnative
  · rw [hnative, reread_single (by omega)]
  · rw [hnative, Doc.reread, Doc.within, if_pos (by omega), rereadItems_singles h, Doc.ofJson]

theorem ordered_single (entry : String × Direction) : (single entry).Ordered := by
  refine .obj (List.pairwise_singleton _ _) fun field hfield => ?_
  rw [List.mem_singleton] at hfield
  rw [hfield]
  exact .str _

theorem ordered_toNative (sort : SortList) : sort.toNative.Ordered := by
  rcases sort.toNative_eq with ⟨entry, rfl, hnative⟩ | hnative
  · rw [hnative]
    exact ordered_single entry
  · rw [hnative]
    refine .arr fun item hitem => ?_
    obtain ⟨entry, -, rfl⟩ := List.mem_map.mp hitem
    exact ordered_single entry

/-- A native ordering is read from arguments as it is, for it is not null. -/
theorem optional_toNative (sort : SortList) :
    (Doc.ofJson sort.toNative).optional Doc.value = .ok (some sort.toNative) := by
  have hnull : sort.toNative.isNull = false := by
    rcases sort.toNative_eq with ⟨entry, rfl, hnative⟩ | hnative <;> rw [hnative] <;> rfl
  exact Codec.value.optional_of_write sort.ordered_toNative hnull

end SortList

namespace Arguments

/-- The field that holds the ordering. -/
def orderField : shape.Field "orderBy" (Option Json) where
  enter doc arguments := do return { arguments with orderBy := ← doc.optional Doc.value }
  lookup_eq := rfl
  read := (·.optional Doc.value)
  get := (·.orderBy)
  read_of_enter := by
    intro doc arguments later h
    obtain ⟨found, hfound, rfl⟩ := exists_of_bind_pure h
    exact hfound
  get_of_other := by
    intro other hother hkey doc arguments later h
    simp only [shape, List.mem_cons, List.not_mem_nil, or_false] at hother
    rcases hother with rfl | rfl | rfl | rfl | rfl | rfl | rfl | rfl
    case inr.inr.inr.inr.inr.inl => exact absurd rfl hkey
    all_goals
      obtain ⟨found, -, rfl⟩ := exists_of_bind_pure h
      rfl
  get_of_stray := by
    intro key doc arguments later h
    obtain ⟨value, -, rfl⟩ := exists_of_bind_pure h
    rfl

end Arguments

namespace SortList

open Sql (Select)

/-- Arguments that have been read from entries with the native form order by the sort list. -/
theorem ofNative_of_readEntries {sort : SortList} {docs : Entries Doc}
    (hkeys : (docs.map (·.1)).Nodup)
    (horder : docs.get? "orderBy" =
      ((some sort).filter (!·.isEmpty)).map fun sort => .ofJson sort.toNative)
    {arguments : Arguments} {known : List String}
    (h : Arguments.shape.readEntries {} [] docs = .ok (arguments, known)) :
    (arguments.orderBy.map ofNative).getD [] = sort := by
  have hread := Arguments.orderField.readAt_of_readEntries hkeys h
  rw [Doc.readAt, horder] at hread
  cases sort with
  | nil =>
    have hnone : none = arguments.orderBy := Except.ok.inj hread
    rw [← hnone]
    rfl
  | cons entry rest =>
    have hsome : some (toNative (entry :: rest)) = arguments.orderBy :=
      Except.ok.inj ((optional_toNative (entry :: rest)).symm.trans hread)
    rw [← hsome]
    exact ofNative_toNative (entry :: rest)

/-- A statement that takes over arguments keeps its sort list and has theirs after it. -/
theorem sort_withArguments {select : Select} {arguments : Arguments}
    (h : (select.withArguments arguments).2 = .ok ()) :
    (select.withArguments arguments).1.sort =
      select.sort ++ (arguments.orderBy.map ofNative).getD [] := by
  simp only [Select.withArguments] at h ⊢
  cases hcondition : arguments.condition.mapM Sql.Condition.ofWhere with
  | error cause => simp [hcondition] at h
  | ok condition =>
    have hrestricted : (condition.elim select select.restrict).sort = select.sort := by
      cases condition <;> rfl
    rw [← hrestricted]
    cases arguments.take.mapM (Select.rows "take") with
    | error cause => rfl
    | ok limit => cases arguments.skip.mapM (Select.rows "skip") <;> rfl

theorem get?_orderBy_compile {options : Shorthand} {sort : SortList} (h : options.sort = some sort)
    (marker : Option String) :
    (Entries.get? (options.compile marker).slots "orderBy").join =
      ((some sort).filter (!·.isEmpty)).map toNative := by
  simp only [Shorthand.compile, h]
  rfl

/-- A sort list is told by its native form, read from it, and read from its text in source order.
Options that carry it are compiled, and when their arguments are written as a value or as text and
read back, a statement that takes them over is ordered as it was before and then by the list.
Written as a value, they can always be read back. -/
theorem order_survives_encodings (sort : SortList) :
    ofNative sort.toNative = sort ∧
    sort.toNative.decode decode = .ok sort ∧
    decodeText decode sort.sourceForm.compact = .ok sort ∧
    ∀ (options : Shorthand) (marker : Option String), options.sort = some sort →
      (∃ arguments, (options.compile marker).toJson.decode Arguments.decode = .ok arguments) ∧
      ∀ arguments, ((options.compile marker).toJson.decode Arguments.decode = .ok arguments ∨
          decodeText Arguments.decode (options.compile marker).text = .ok arguments) →
        ∀ select : Select, (select.withArguments arguments).2 = .ok () →
          (select.withArguments arguments).1.sort = select.sort ++ sort := by
  refine ⟨sort.ofNative_toNative, sort.decode_toNative, sort.decodeText_sourceForm,
    fun options marker hsort => ?_⟩
  have hapart : (options.compile marker).Apart := by simp [Shorthand.compile, Arguments.Apart]
  have hextra : (options.compile marker).extra.Sorted := .nil
  refine ⟨Arguments.exists_decode_toJson hapart hextra, fun arguments hread select hdone => ?_⟩
  rw [sort_withArguments hdone, List.append_cancel_left_eq]
  rcases hread with hread | hread
  · obtain ⟨known, hentries⟩ := (Arguments.decode_obj_eq_ok _ arguments).mp hread
    have hsorted : (Entries.ofList (options.compile marker).entries).Sorted :=
      Entries.Sorted.insertAll .nil _
    refine ofNative_of_readEntries (Doc.nodup_keys_ofEntries hsorted) ?_ hentries
    rw [Doc.get?_ofEntries, Arguments.get?_ofList_entries hapart hextra, if_pos (by decide),
      get?_orderBy_compile hsort, Option.map_map]
    rfl
  · have hdoc : Doc.reread 0 (.obj (options.compile marker).entries) =
        .obj (Doc.rereadEntries 1 (options.compile marker).entries) none := rfl
    have hdecode := (decodeText_compact_eq_ok_iff _ _ _).mp hread
    rw [hdoc] at hdecode
    obtain ⟨known, hentries, -⟩ := (RecordShape.decodeEntries_eq_ok_iff _ _).mp hdecode
    have hwritten : (options.compile marker).entries =
        Arguments.present (options.compile marker).slots := List.append_nil _
    have hkeys : ((Doc.rereadEntries 1 (options.compile marker).entries).map (·.1)).Nodup := by
      rw [Doc.rereadEntries_eq_map, List.map_map, hwritten]
      exact Arguments.nodup_keys_present (by rw [Arguments.keys_slots]; decide)
    refine ofNative_of_readEntries hkeys ?_ hentries
    rw [Doc.rereadEntries_eq_map, Entries.get?_map, hwritten,
      Arguments.get?_present (by rw [Arguments.keys_slots]; decide), get?_orderBy_compile hsort,
      Option.map_map]
    exact congrArg (Option.map · _) (funext fun sort => reread_toNative (by decide) sort)

/-- A field that stands twice is written twice, and keeps both its places behind those that the
statement has. -/
theorem order_survives_encodings_of_repeated_field :
    let sort : SortList := [("name", .desc), ("age", .asc), ("name", .asc)]
    let options : Shorthand := { window := some (.page 2 10), sort := some sort }
    let arguments : Arguments := { skip := some 10, take := some 10, orderBy := some sort.toNative }
    let select : Select := { table := "user", sort := [("age", .desc)] }
    (options.compile none).toJson.decode Arguments.decode = .ok arguments ∧
      decodeText Arguments.decode (options.compile none).text = .ok arguments ∧
      (select.withArguments arguments).1.sort = ("age", .desc) :: sort := by
  intro sort options arguments select
  obtain ⟨-, -, -, hordered⟩ := order_survives_encodings sort
  obtain ⟨-, hread⟩ := hordered options none rfl
  have hvalue : (options.compile none).toJson.decode Arguments.decode = .ok arguments := by
    decide +kernel
  have htext : decodeText Arguments.decode (options.compile none).text = .ok arguments :=
    (decodeText_compact_eq_ok_iff _ _ _).mpr (by decide +kernel)
  have hdone : (select.withArguments arguments).2 = .ok () := rfl
  exact ⟨hvalue, htext, hread arguments (.inr htext) select hdone⟩

end SortList

end RecordQuery
