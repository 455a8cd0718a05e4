import RecordQuery.Proofs.Printed
import RecordQuery.Service

/-!
# Cache keys

The key of a call is its operation and the text of its arguments. Arguments whose other keys stand
apart from the known ones are told by their text, so such calls have one key only if they have one
operation and the same arguments.
-/

namespace RecordQuery

namespace Arguments

/-- The known keys, each with the value that is there. -/
def slots (arguments : Arguments) : List (String × Option Json) :=
  [("where", arguments.condition.map .obj),
    ("select", arguments.selected.map .obj),
    ("include", arguments.included.map .obj),
    ("skip", arguments.skip.map (.int ·.toInt)),
    ("take", arguments.take.map (.int ·.toInt)),
    ("orderBy", arguments.orderBy),
    ("data", arguments.data),
    ("_aggregate", arguments.aggregate.map .obj)]

def knownKeys : List String :=
  ["where", "select", "include", "skip", "take", "orderBy", "data", "_aggregate"]

/-- No other key is named like a known one. -/
def Apart (arguments : Arguments) : Prop := ∀ entry ∈ arguments.extra, entry.1 ∉ knownKeys

instance (arguments : Arguments) : Decidable arguments.Apart :=
  inferInstanceAs (Decidable (∀ _ ∈ _, _))

def present (slots : List (String × Option Json)) : List (String × Json) :=
  slots.filterMap fun (key, value) => value.map (key, ·)

theorem mem_keys_of_mem_present {slots : List (String × Option Json)} {key : String} {value : Json}
    (h : (key, value) ∈ present slots) : key ∈ slots.map (·.1) := by
  obtain ⟨⟨slotKey, slotValue⟩, hslot, hvalue⟩ := List.mem_filterMap.mp h
  obtain ⟨held, -, hheld⟩ := Option.map_eq_some_iff.mp hvalue
  obtain ⟨rfl, -⟩ := Prod.mk.inj hheld
  exact List.mem_map_of_mem hslot

/-- Entries under distinct keys, some of them absent, followed by entries under further keys. -/
theorem present_append_inj {slots others : List (String × Option Json)}
    {extra more : List (String × Json)} (hkeys : slots.map (·.1) = others.map (·.1))
    (hnodup : (slots.map (·.1)).Nodup) (hextra : ∀ entry ∈ extra, entry.1 ∉ slots.map (·.1))
    (hmore : ∀ entry ∈ more, entry.1 ∉ slots.map (·.1))
    (h : present slots ++ extra = present others ++ more) : slots = others ∧ extra = more := by
  induction slots generalizing others with
  | nil =>
    obtain rfl : others = [] := by simpa using hkeys.symm
    exact ⟨rfl, h⟩
  | cons slot rest ih =>
    obtain ⟨key, value⟩ := slot
    obtain _ | ⟨⟨otherKey, other⟩, otherRest⟩ := others
    · simp at hkeys
    obtain ⟨rfl, hrest⟩ := List.cons.inj hkeys
    obtain ⟨hkey, hrestNodup⟩ := List.nodup_cons.mp hnodup
    have hfurther : ∀ {entries : List (String × Json)},
        (∀ entry ∈ entries, entry.1 ∉ ((key, value) :: rest).map (·.1)) →
        (∀ entry ∈ entries, entry.1 ≠ key) ∧ ∀ entry ∈ entries, entry.1 ∉ rest.map (·.1) := by
      intro entries hentries
      constructor
      · rintro entry hentry rfl
        exact hentries entry hentry List.mem_cons_self
      · intro entry hentry hmem
        exact hentries entry hentry (List.mem_cons_of_mem _ hmem)
    obtain ⟨hextraKey, hextraRest⟩ := hfurther hextra
    obtain ⟨hmoreKey, hmoreRest⟩ := hfurther hmore
    have habsent : ∀ (held : Json) {tail : List (String × Option Json)}
        {entries : List (String × Json)}, tail.map (·.1) = rest.map (·.1) →
        (∀ entry ∈ entries, entry.1 ≠ key) → (key, held) ∉ present tail ++ entries := by
      intro held tail entries htail hentries hmem
      rcases List.mem_append.mp hmem with hmem | hmem
      · exact hkey (htail ▸ mem_keys_of_mem_present hmem)
      · exact hentries _ hmem rfl
    cases value with
    | none =>
      cases other with
      | none =>
        obtain ⟨rfl, hentries⟩ := ih hrest hrestNodup hextraRest hmoreRest h
        exact ⟨rfl, hentries⟩
      | some held =>
        refine (habsent held rfl hextraKey ?_).elim
        rw [show present rest ++ extra = _ from h]
        exact List.mem_cons_self
    | some held =>
      cases other with
      | none =>
        refine (habsent held hrest.symm hmoreKey ?_).elim
        rw [show present otherRest ++ more = _ from h.symm]
        exact List.mem_cons_self
      | some second =>
        obtain ⟨hheld, htail⟩ := List.cons.inj h
        obtain ⟨-, rfl⟩ := Prod.mk.inj hheld
        obtain ⟨rfl, hentries⟩ := ih hrest hrestNodup hextraRest hmoreRest htail
        exact ⟨rfl, hentries⟩

theorem slots_injective {arguments other : Arguments} (h : arguments.slots = other.slots)
    (hextra : arguments.extra = other.extra) : arguments = other := by
  have hobj : ∀ {a b : Option Fields}, a.map Json.obj = b.map Json.obj → a = b :=
    fun heq => Option.map_injective (fun _ _ => Json.obj.inj) heq
  have hint : ∀ {a b : Option Int64},
      a.map (Json.int ·.toInt) = b.map (Json.int ·.toInt) → a = b :=
    fun heq => Option.map_injective
      (fun _ _ hvalue => Int64.toInt_inj.mp (Number.int.inj (Json.num.inj hvalue))) heq
  cases arguments
  cases other
  simp only [slots, List.cons.injEq, Prod.mk.injEq, true_and, and_true] at h hextra
  obtain ⟨hwhere, hselect, hinclude, hskip, htake, horder, hdata, haggregate⟩ := h
  rw [hobj hwhere, hobj hselect, hobj hinclude, hint hskip, hint htake, horder, hdata,
    hobj haggregate, hextra]

/-- Arguments are told by their text. -/
theorem text_injective {arguments other : Arguments} (hapart : arguments.Apart)
    (hother : other.Apart) (h : arguments.text = other.text) : arguments = other := by
  have hentries : present arguments.slots ++ arguments.extra =
      present other.slots ++ other.extra :=
    Json.obj.inj (Json.compact_injective h)
  have hkeys : arguments.slots.map (·.1) = other.slots.map (·.1) := rfl
  obtain ⟨hslots, hextra⟩ := present_append_inj hkeys (show knownKeys.Nodup by decide) hapart
    hother hentries
  exact slots_injective hslots hextra

end Arguments

theorem Operation.notMem_name (operation : Operation) : ':' ∉ operation.name.toList := by
  cases operation <;> decide

theorem Operation.name_injective {operation other : Operation}
    (h : operation.name = other.name) : operation = other := by
  have hname := operation.ofName?_name
  rw [h, other.ofName?_name] at hname
  exact (Option.some.inj hname).symm

/-- Calls that have one key are one call. -/
theorem cacheKey_injective {operation second : Operation} {arguments other : Arguments}
    (hapart : arguments.Apart) (hother : other.Apart)
    (h : cacheKey operation arguments = cacheKey second other) :
    operation = second ∧ arguments = other := by
  have hchars : operation.name.toList ++ ':' :: arguments.text.toList =
      second.name.toList ++ ':' :: other.text.toList := by
    have hlist := congrArg String.toList h
    simpa [cacheKey, String.toList_append] using hlist
  obtain ⟨hname, htext⟩ := Text.before_append operation.notMem_name arguments.text.toList
  obtain ⟨hnameOther, htextOther⟩ := Text.before_append second.notMem_name other.text.toList
  rw [hchars] at hname htext
  constructor
  · exact Operation.name_injective (String.toList_inj.mp (hname.symm.trans hnameOther))
  · exact Arguments.text_injective hapart hother
      (String.toList_inj.mp (htext.symm.trans htextOther))

/-- Two calls have one key just if they are one operation and their arguments agree in every field.
Fields agree when both are absent or both have the same value, so an absent field does not agree
with null or with an empty object. -/
theorem calls_are_told_by_keys {operation second : Operation} {arguments other : Arguments}
    (hapart : arguments.Apart) (hother : other.Apart) :
    cacheKey operation arguments = cacheKey second other ↔
      operation = second ∧
      arguments.condition = other.condition ∧
      arguments.selected = other.selected ∧
      arguments.included = other.included ∧
      arguments.skip = other.skip ∧
      arguments.take = other.take ∧
      arguments.orderBy = other.orderBy ∧
      arguments.data = other.data ∧
      arguments.aggregate = other.aggregate ∧
      arguments.extra = other.extra := by
  constructor
  · intro h
    obtain ⟨rfl, rfl⟩ := cacheKey_injective hapart hother h
    exact ⟨rfl, rfl, rfl, rfl, rfl, rfl, rfl, rfl, rfl, rfl⟩
  · rintro ⟨rfl, hcondition, hselected, hincluded, hskip, htake, horder, hdata, haggregate, hextra⟩
    cases arguments
    cases other
    simp only at hcondition hselected hincluded hskip htake horder hdata haggregate hextra
    subst hcondition hselected hincluded hskip htake horder hdata haggregate hextra
    rfl

/-- Null where there is nothing, and a quotation mark in a further key that would end it early, are
both told. -/
theorem calls_are_told_by_keys_beside_null :
    let plain : Arguments := { condition := some [], extra := [("by", .arr []), ("cursor", .null)] }
    let null : Arguments := { plain with data := some .null }
    let quoted : Arguments := { condition := some [], extra := [("by\":[],\"cursor", .null)] }
    plain.Apart ∧ null.Apart ∧ quoted.Apart ∧
      cacheKey .findMany plain ≠ cacheKey .findMany null ∧
      cacheKey .findMany plain ≠ cacheKey .findMany quoted := by
  intro plain null quoted
  have hplain : plain.Apart := by decide
  have hnull : null.Apart := by decide
  have hquoted : quoted.Apart := by decide
  refine ⟨hplain, hnull, hquoted, fun hkey => ?_, fun hkey => ?_⟩
  · obtain ⟨-, -, -, -, -, -, -, hdata, -⟩ := (calls_are_told_by_keys hplain hnull).mp hkey
    cases hdata
  · obtain ⟨-, -, -, -, -, -, -, -, -, hextra⟩ := (calls_are_told_by_keys hplain hquoted).mp hkey
    exact absurd hextra (by decide)

-- A further key that is named like a known one is written like it, and the two calls are not told.
example : cacheKey .findMany { data := some .null } =
    cacheKey .findMany { extra := [("data", .null)] } := rfl

end RecordQuery
