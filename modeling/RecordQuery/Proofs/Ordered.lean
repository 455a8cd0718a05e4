import RecordQuery.Proofs.Merging
import RecordQuery.Proofs.Records
import RecordQuery.Shorthand

/-!
# Values in key order

An ordered value has its keys in order in every object, at any depth. What is read from a document
is ordered, and so is what parsing, merging and compiling make of ordered values. No key stands
twice in a where map or below it.
-/

namespace RecordQuery

inductive Json.Ordered : Json → Prop where
  | null : Ordered .null
  | bool (value : Bool) : Ordered (.bool value)
  | num (value : Number) : Ordered (.num value)
  | str (value : String) : Ordered (.str value)
  | arr {items : List Json} (items_ordered : ∀ item ∈ items, Ordered item) : Ordered (.arr items)
  | obj {entries : Fields} (sorted : entries.Sorted)
      (values_ordered : ∀ entry ∈ entries, Ordered entry.2) : Ordered (.obj entries)

namespace Json

theorem ordered_arr (items : List Json) :
    Ordered (.arr items) ↔ ∀ item ∈ items, Ordered item := by
  constructor
  · rintro (_ | _ | _ | _ | h | _)
    exact h
  · exact .arr

theorem ordered_obj (entries : Fields) :
    Ordered (.obj entries) ↔ entries.Sorted ∧ ∀ entry ∈ entries, Ordered entry.2 := by
  constructor
  · rintro (_ | _ | _ | _ | _ | ⟨hsorted, hvalues⟩)
    exact ⟨hsorted, hvalues⟩
  · rintro ⟨hsorted, hvalues⟩
    exact .obj hsorted hvalues

mutual

def decOrdered : (value : Json) → Decidable value.Ordered
  | .null => .isTrue .null
  | .bool value => .isTrue (.bool value)
  | .num value => .isTrue (.num value)
  | .str value => .isTrue (.str value)
  | .arr items =>
    have := decItemsOrdered items
    decidable_of_iff _ (ordered_arr items).symm
  | .obj entries =>
    have := decValuesOrdered entries
    decidable_of_iff _ (ordered_obj entries).symm

def decItemsOrdered : (items : List Json) → Decidable (∀ item ∈ items, item.Ordered)
  | [] => .isTrue (by simp)
  | item :: rest =>
    have := decOrdered item
    have := decItemsOrdered rest
    decidable_of_iff _ List.forall_mem_cons.symm

def decValuesOrdered : (entries : List (String × Json)) →
    Decidable (∀ entry ∈ entries, entry.2.Ordered)
  | [] => .isTrue (by simp)
  | (key, value) :: rest =>
    have : Decidable (key, value).2.Ordered := decOrdered value
    have := decValuesOrdered rest
    decidable_of_iff _ List.forall_mem_cons.symm

end

instance : DecidablePred Ordered := decOrdered

theorem Ordered.sorted {entries : Fields} (h : Ordered (.obj entries)) : entries.Sorted :=
  ((ordered_obj entries).mp h).1

theorem Ordered.of_get? {entries : Fields} (h : Ordered (.obj entries)) {key : String}
    {value : Json} (hget : entries.get? key = some value) : value.Ordered :=
  ((ordered_obj entries).mp h).2 _ (Entries.mem_of_get? hget)

theorem Ordered.insert {entries : Fields} (h : Ordered (.obj entries)) (key : String)
    {value : Json} (hvalue : value.Ordered) : Ordered (.obj (entries.insert key value)) := by
  obtain ⟨hsorted, hvalues⟩ := (ordered_obj entries).mp h
  refine .obj (hsorted.insert key value) ?_
  intro entry hentry
  rcases Entries.mem_insert hentry with rfl | hold
  · exact hvalue
  · exact hvalues entry hold

theorem Ordered.of_mem_toList {value : Json} (h : value.Ordered) :
    ∀ item ∈ value.toList, item.Ordered := by
  cases value with
  | arr items => exact (ordered_arr items).mp h
  | _ => simpa [toList] using h

theorem Ordered.insertAll {entries : Fields} (h : Ordered (.obj entries)) {more : Fields}
    (hmore : ∀ entry ∈ more, Ordered entry.2) : Ordered (.obj (entries.insertAll more)) := by
  unfold Entries.insertAll
  induction more generalizing entries with
  | nil => exact h
  | cons entry rest ih =>
    obtain ⟨hentry, hrest⟩ := List.forall_mem_cons.mp hmore
    exact ih (h.insert entry.1 hentry) hrest

end Json

namespace Doc

theorem finish_eq_ok {α : Type} {value result : α} {stop : Option Fault}
    (h : finish value stop = .ok result) : value = result := by
  cases stop with
  | none => exact Except.ok.inj h
  | some fault => simp [finish] at h

mutual

/-- What is read from a document is ordered, however its source is. -/
theorem ordered_toJson : ∀ (doc : Doc) {value : Json}, doc.toJson = .ok value → value.Ordered
  | .null, value, h | .bool _, value, h | .num _, value, h | .str _, value, h => by
    obtain rfl := Except.ok.inj h
    constructor
  | .arr items stop, value, h => by
    simp only [toJson, bind_eq_ok] at h
    obtain ⟨values, hvalues, hfinish⟩ := h
    obtain rfl := finish_eq_ok hfinish
    exact .arr (ordered_toItems items hvalues)
  | .obj entries stop, value, h => by
    simp only [toJson, bind_eq_ok] at h
    obtain ⟨values, hvalues, hfinish⟩ := h
    obtain rfl := finish_eq_ok hfinish
    exact Json.Ordered.insertAll (.obj .nil (by simp)) (ordered_toEntries entries hvalues)
  | .faulty fault, value, h => by simp [toJson] at h

theorem ordered_toItems : ∀ (items : List Doc) {values : List Json},
    toItems items = .ok values → ∀ value ∈ values, value.Ordered
  | [], values, h => by
    obtain rfl := Except.ok.inj h
    simp
  | item :: rest, values, h => by
    simp only [toItems, bind_eq_ok, pure_eq_ok] at h
    obtain ⟨value, hvalue, more, hmore, rfl⟩ := h
    exact List.forall_mem_cons.mpr ⟨ordered_toJson item hvalue, ordered_toItems rest hmore⟩

theorem ordered_toEntries : ∀ (entries : List (String × Doc)) {values : List (String × Json)},
    toEntries entries = .ok values → ∀ entry ∈ values, entry.2.Ordered
  | [], values, h => by
    obtain rfl := Except.ok.inj h
    simp
  | (key, doc) :: rest, values, h => by
    simp only [toEntries, bind_eq_ok, pure_eq_ok] at h
    obtain ⟨value, hvalue, more, hmore, rfl⟩ := h
    exact List.forall_mem_cons.mpr ⟨ordered_toJson doc hvalue, ordered_toEntries rest hmore⟩

end

theorem ofSource_eq_ok {α : Type} {result : Except Malformed α} {value : α}
    (h : Decode.ofSource result = .ok value) : result = .ok value := by
  cases result with
  | ok read => exact congrArg Except.ok (Except.ok.inj h)
  | error cause => cases h

theorem ordered_value {doc : Doc} {value : Json} (h : doc.value = .ok value) : value.Ordered :=
  ordered_toJson doc (ofSource_eq_ok h)

theorem ordered_fields {doc : Doc} {entries : Fields} (h : doc.fields = .ok entries) :
    (Json.obj entries).Ordered := by
  cases doc with
  | obj source stop =>
    simp only [fields, bind_eq_ok] at h
    obtain ⟨values, hvalues, hfinish⟩ := h
    obtain rfl := finish_eq_ok (ofSource_eq_ok hfinish)
    exact .insertAll (.obj .nil (by simp)) (ordered_toEntries source (ofSource_eq_ok hvalues))
  | _ => cases h

theorem ordered_optional_fields {doc : Doc} {found : Option Fields}
    (h : doc.optional Doc.fields = .ok found) :
    ∀ entries ∈ found, (Json.obj entries).Ordered := by
  unfold optional at h
  split at h
  · obtain rfl := Except.ok.inj h
    simp
  · obtain ⟨entries, hentries, rfl⟩ := exists_of_bind_pure h
    simpa using ordered_fields hentries

end Doc

namespace Where

theorem ordered_conjoin {target : Fields} (h : (Json.obj target).Ordered) {clause : Json}
    (hclause : clause.Ordered) : (Json.obj (conjoin target clause)).Ordered := by
  refine h.insert conjunction (.arr ?_)
  intro item hitem
  rcases List.mem_append.mp hitem with hbefore | hnew
  · cases hpresent : target.get? conjunction with
    | none => simp [hpresent] at hbefore
    | some present =>
      exact (h.of_get? hpresent).of_mem_toList item (by simpa [hpresent] using hbefore)
  · exact hclause.of_mem_toList item hnew

theorem ordered_enter {target : Fields} (h : (Json.obj target).Ordered) (key : String)
    {value : Json} (hvalue : value.Ordered) {meet : Json → Json}
    (hmeet : ∀ present : Json, present.Ordered → (meet present).Ordered) :
    (Json.obj (enter target key value meet)).Ordered := by
  unfold enter
  split
  · exact ordered_conjoin h hvalue
  · split
    · exact h.insert key hvalue
    · rename_i present hpresent
      split
      · refine ordered_conjoin h (.obj (by simp [Entries.Sorted]) ?_)
        simpa using hvalue
      · exact h.insert key (hmeet present (h.of_get? hpresent))

/-- The induction is on the incoming value, whose entries are merged one after the other. -/
theorem ordered_mergeCondition {incoming : Json} (h : incoming.Ordered) {present : Json}
    (hpresent : present.Ordered) : (mergeCondition present incoming).Ordered := by
  unfold mergeCondition
  induction h generalizing present with
  | @obj entries hsorted hvalues ih =>
    cases present with
    | obj target =>
      rw [meet]
      clear hsorted
      induction entries generalizing target with
      | nil => simpa [meetAll] using hpresent
      | cons entry rest ihrest =>
        obtain ⟨key, value⟩ := entry
        obtain ⟨hvalue, hvalues⟩ := List.forall_mem_cons.mp hvalues
        obtain ⟨hmeet, hmeets⟩ := List.forall_mem_cons.mp ih
        rw [meetAll]
        exact ihrest hvalues hmeets _
          (ordered_enter hpresent key hvalue fun present h => hmeet h)
    | _ =>
      have hentries : (Json.obj entries).Ordered := .obj hsorted hvalues
      simp only [meet]
      split
      · exact hentries
      · exact hentries.insert equality hpresent
  | _ =>
    cases present with
    | obj target => simpa [meet] using hpresent.insert equality (by constructor <;> assumption)
    | _ => simp only [meet]; constructor <;> assumption

theorem ordered_mergeField {target : Fields} (h : (Json.obj target).Ordered) (key : String)
    {value : Json} (hvalue : value.Ordered) : (Json.obj (mergeField target key value)).Ordered :=
  ordered_enter h key hvalue fun _ hpresent => ordered_mergeCondition hvalue hpresent

theorem ordered_merge {target incoming : Fields} (h : (Json.obj target).Ordered)
    (hincoming : ∀ entry ∈ incoming, entry.2.Ordered) :
    (Json.obj (merge target incoming)).Ordered := by
  induction incoming generalizing target with
  | nil => simpa using h
  | cons entry rest ih =>
    obtain ⟨key, value⟩ := entry
    obtain ⟨hvalue, hrest⟩ := List.forall_mem_cons.mp hincoming
    rw [merge_cons]
    exact ih (ordered_mergeField h key hvalue) hrest

end Where

theorem Json.Ordered.singleton (key : String) {value : Json} (h : value.Ordered) :
    (Json.obj [(key, value)]).Ordered :=
  .obj (by simp [Entries.Sorted]) (by simpa using h)

theorem Operator.ordered_condition (operator : Operator) {value : Json} (h : value.Ordered) :
    (operator.condition value).Ordered := by
  have hflagged (key : String) :
      (Json.obj (Entries.ofList [(key, value), (Where.caseFlag, .bool true)])).Ordered :=
    (Json.Ordered.singleton key h).insert Where.caseFlag (.bool true)
  cases operator with
  | equals => exact h
  | contains | startsWith | endsWith => exact hflagged _
  | isIn | notIn => exact .singleton _ (.arr h.of_mem_toList)
  | _ => exact .singleton _ h

namespace Filter

theorem ordered_entry (key : String) {value : Json} (h : value.Ordered) :
    (entry key value).2.Ordered := by
  unfold entry
  split
  · split
    · exact h
    · split
      · exact Operator.ordered_condition _ h
      · exact h
  · exact h

theorem ordered_parse {filters : Fields} (h : (Json.obj filters).Ordered) :
    (Json.obj (parse filters)).Ordered := by
  refine Where.ordered_merge (.obj .nil (by simp)) ?_
  intro parsed hparsed
  obtain ⟨⟨key, value⟩, hentry, rfl⟩ := List.mem_map.mp hparsed
  exact ordered_entry key (((Json.ordered_obj filters).mp h).2 _ hentry)

end Filter

theorem Search.ordered_clauses? {search : Search} {clauses : Json}
    (h : search.clauses? = some clauses) : clauses.Ordered := by
  simp only [clauses?, Option.ite_none_right_eq_some, Option.some.injEq] at h
  obtain ⟨-, rfl⟩ := h
  refine .arr ?_
  intro item hitem
  obtain ⟨field, -, rfl⟩ := List.mem_map.mp hitem
  exact .singleton field (Operator.ordered_condition _ (.str search.term))

namespace Arguments

/-- The field that holds the condition. -/
def conditionField : shape.Field "where" (Option Fields) where
  enter doc arguments := do return { arguments with condition := ← doc.optional Doc.fields }
  lookup_eq := rfl
  read := (·.optional Doc.fields)
  get := (·.condition)
  read_of_enter := by
    intro doc arguments later h
    obtain ⟨found, hfound, rfl⟩ := exists_of_bind_pure h
    exact hfound
  get_of_other := by
    intro other hother hkey doc arguments later h
    simp only [shape, List.mem_cons, List.not_mem_nil, or_false] at hother
    rcases hother with rfl | rfl | rfl | rfl | rfl | rfl | rfl | rfl
    case inl => exact absurd rfl hkey
    all_goals
      obtain ⟨found, -, rfl⟩ := exists_of_bind_pure h
      rfl
  get_of_stray := by
    intro key doc arguments later h
    obtain ⟨value, -, rfl⟩ := exists_of_bind_pure h
    rfl

theorem ordered_condition_of_decode {fields : Fields} (hfields : fields.Sorted)
    {arguments : Arguments} (h : (Json.obj fields).decode decode = .ok arguments) :
    ∀ condition ∈ arguments.condition, (Json.obj condition).Ordered := by
  obtain ⟨known, hread, -⟩ := (RecordShape.decodeEntries_eq_ok_iff _ _).mp h
  exact conditionField.of_readEntries (Doc.nodup_keys_ofEntries hfields) hread nofun
    Doc.ordered_optional_fields

end Arguments

namespace Shorthand

/-- The field that holds the filters. -/
def filtersField : shape.Field "filters" (Option Fields) where
  enter doc options := do return { options with filters := ← doc.optional Doc.fields }
  lookup_eq := rfl
  read := (·.optional Doc.fields)
  get := (·.filters)
  read_of_enter := by
    intro doc options later h
    obtain ⟨found, hfound, rfl⟩ := exists_of_bind_pure h
    exact hfound
  get_of_other := by
    intro other hother hkey doc options later h
    simp only [shape, List.mem_cons, List.not_mem_nil, or_false] at hother
    rcases hother with rfl | rfl | rfl | rfl | rfl | rfl | rfl | rfl | rfl | rfl | rfl
    case inl => exact absurd rfl hkey
    all_goals
      obtain ⟨found, -, rfl⟩ := exists_of_bind_pure h
      rfl
  get_of_stray h := congrArg filters (RecordShape.eq_of_pass h)

theorem ordered_filters_of_decode {fields : Fields} (hfields : fields.Sorted)
    {options : Shorthand} (h : (Json.obj fields).decode decode = .ok options) :
    ∀ filters ∈ options.filters, (Json.obj filters).Ordered := by
  obtain ⟨known, hread, -⟩ := (RecordShape.decodeEntries_eq_ok_iff _ _).mp h
  exact filtersField.of_readEntries (Doc.nodup_keys_ofEntries hfields) hread nofun
    Doc.ordered_optional_fields

theorem ordered_condition (marker : Option String) {options : Shorthand}
    (h : ∀ filters ∈ options.filters, (Json.obj filters).Ordered) :
    (Json.obj (options.condition marker)).Ordered := by
  have hempty : (Json.obj []).Ordered := .obj .nil (by simp)
  have hfilters : (Json.obj (options.filters.getD [])).Ordered := by
    cases hoptions : options.filters with
    | none => exact hempty
    | some filters => exact h filters hoptions
  have hfiltered := Where.ordered_merge hempty
    ((Json.ordered_obj _).mp (Filter.ordered_parse hfilters)).2
  have hlive (field : String) := Where.ordered_mergeField hfiltered field .null
  simp only [condition]
  split
  · rename_i clauses hclauses
    obtain ⟨search, -, hclauses⟩ := Option.bind_eq_some_iff.mp hclauses
    refine Where.ordered_mergeField ?_ _ (Search.ordered_clauses? hclauses)
    split
    · exact hlive _
    · exact hfiltered
  · split
    · exact hlive _
    · exact hfiltered

theorem ordered_compile (marker : Option String) {options : Shorthand}
    (h : ∀ filters ∈ options.filters, (Json.obj filters).Ordered) :
    ∀ tree ∈ (options.compile marker).condition, (Json.obj tree).Ordered := by
  intro tree htree
  simp only [compile, Option.mem_def, Option.ite_none_left_eq_some, Option.some.injEq] at htree
  obtain ⟨-, rfl⟩ := htree
  exact ordered_condition marker h

end Shorthand

end RecordQuery
