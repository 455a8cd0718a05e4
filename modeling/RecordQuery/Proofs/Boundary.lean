import RecordQuery.Proofs.Keys
import RecordQuery.Proofs.Ordered
import RecordQuery.Proofs.Records
import RecordQuery.Request

/-!
# Native arguments as JSON values

Each known key is a port: what is read at it is put into one field, and what the field holds is
written there. Reading an object enters its entries one after the other, so every known key ends up
with what stands under it, null counting as nothing, and the other entries stay as they are. Written
arguments are therefore read as they were, and read ones are written as they stood, but for the
known keys with null.
-/

namespace RecordQuery

namespace Doc

mutual

/-- A value is what is read from its document, if its keys are in order. -/
theorem toJson_ofJson : ∀ {value : Json}, value.Ordered → (ofJson value).toJson = .ok value
  | .null, _ | .bool _, _ | .num _, _ | .str _, _ => by simp [ofJson, toJson]
  | .arr items, h => by
    have hitems := toItems_ofItems ((Json.ordered_arr items).mp h)
    simp [ofJson, toJson, hitems, finish, Bind.bind, Except.bind]
  | .obj entries, h => by
    obtain ⟨hsorted, hvalues⟩ := (Json.ordered_obj entries).mp h
    have hentries := toEntries_ofEntries hvalues
    simp [ofJson, toJson, hentries, hsorted.ofList_eq, finish, Bind.bind, Except.bind]

theorem toItems_ofItems : ∀ {items : List Json}, (∀ item ∈ items, item.Ordered) →
    toItems (ofItems items) = .ok items
  | [], _ => by simp [ofItems, toItems]
  | item :: rest, h => by
    obtain ⟨hitem, hrest⟩ := List.forall_mem_cons.mp h
    simp [ofItems, toItems, toJson_ofJson hitem, toItems_ofItems hrest, Bind.bind, Except.bind,
      Pure.pure, Except.pure]

theorem toEntries_ofEntries : ∀ {entries : List (String × Json)},
    (∀ entry ∈ entries, entry.2.Ordered) → toEntries (ofEntries entries) = .ok entries
  | [], _ => by simp [ofEntries, toEntries]
  | (key, value) :: rest, h => by
    obtain ⟨hvalue, hrest⟩ := List.forall_mem_cons.mp h
    have hread : (ofJson value).toJson = .ok value := toJson_ofJson hvalue
    simp [ofEntries, toEntries, hread, toEntries_ofEntries hrest, Bind.bind, Except.bind,
      Pure.pure, Except.pure]

end

end Doc

/-- The value unless it is null. -/
def Json.nonNull? (value : Json) : Option Json := (some value).filter (!·.isNull)

/-- A reader and a writer of one kind of field. -/
structure Codec (α : Type) where
  read : Doc → Decode α
  write : α → Json
  write_of_read : ∀ {value found}, value.Ordered → read (.ofJson value) = .ok found →
    write found = value
  read_of_write : ∀ {found}, (write found).Ordered → read (.ofJson (write found)) = .ok found

namespace Codec

def fields : Codec Fields where
  read := Doc.fields
  write := .obj
  write_of_read := by
    intro value found hvalue hread
    cases value with
    | obj entries =>
      obtain ⟨hsorted, hvalues⟩ := (Json.ordered_obj entries).mp hvalue
      simp only [Doc.ofJson, Doc.fields, Doc.toEntries_ofEntries hvalues] at hread
      have hfound : Entries.ofList entries = found := Except.ok.inj hread
      rw [← hfound, hsorted.ofList_eq]
    | _ => cases hread
  read_of_write := by
    intro found hvalue
    obtain ⟨hsorted, hvalues⟩ := (Json.ordered_obj found).mp hvalue
    simp only [Doc.ofJson, Doc.fields, Doc.toEntries_ofEntries hvalues]
    exact congrArg Except.ok hsorted.ofList_eq

def word : Codec Int64 where
  read := Doc.signed
  write n := .int n.toInt
  write_of_read := by
    intro value found _ hread
    cases value with
    | num number =>
      cases number with
      | int n =>
        simp only [Doc.ofJson, Doc.signed] at hread
        split at hread
        · rename_i hrange
          obtain rfl := Except.ok.inj hread
          rw [Int64.toInt_ofInt_of_le hrange.1 hrange.2, Json.int]
        · cases hread
      | double x => cases hread
    | _ => cases hread
  read_of_write := by
    intro found _
    have hrange := And.intro found.le_toInt found.toInt_lt
    simp only [Json.int, Doc.ofJson, Doc.signed, if_pos hrange, Int64.ofInt_toInt]

def value : Codec Json where
  read := Doc.value
  write value := value
  write_of_read := by
    intro value found hvalue hread
    rw [Doc.value, Doc.toJson_ofJson hvalue] at hread
    exact (Except.ok.inj hread).symm
  read_of_write := by
    intro found hvalue
    rw [Doc.value, Doc.toJson_ofJson hvalue]
    rfl

variable {α : Type} (codec : Codec α)

theorem optional_null : (Doc.ofJson .null).optional codec.read = .ok none := by
  simp only [Doc.ofJson, Doc.optional]

theorem optional_of_not_null {value : Json} (h : value.isNull = false) :
    (Doc.ofJson value).optional codec.read = some <$> codec.read (.ofJson value) := by
  cases value with
  | null => simp [Json.isNull] at h
  | _ => simp [Doc.ofJson, Doc.optional]

/-- What is read from a value is written as the value, null as nothing. -/
theorem map_of_optional {value : Json} (hvalue : value.Ordered) {found : Option α}
    (h : (Doc.ofJson value).optional codec.read = .ok found) :
    found.map codec.write = value.nonNull? := by
  cases hnull : value.isNull with
  | true =>
    obtain rfl : value = .null := by cases value <;> simp [Json.isNull] at hnull ⊢
    rw [codec.optional_null] at h
    obtain rfl := Except.ok.inj h
    rfl
  | false =>
    rw [codec.optional_of_not_null hnull, map_eq_ok] at h
    obtain ⟨first, hfirst, rfl⟩ := h
    rw [Option.map_some, codec.write_of_read hvalue hfirst]
    simp [Json.nonNull?, Option.filter, hnull]

theorem optional_of_write {found : α} (hvalue : (codec.write found).Ordered)
    (hnull : (codec.write found).isNull = false) :
    (Doc.ofJson (codec.write found)).optional codec.read = .ok (some found) := by
  rw [codec.optional_of_not_null hnull, codec.read_of_write hvalue]
  rfl

end Codec

namespace Arguments

/-- The slots with another value in that of the key. -/
def fill (key : String) (value : Option Json) (slots : List (String × Option Json)) :
    List (String × Option Json) :=
  slots.map fun slot => if slot.1 = key then (slot.1, value) else slot

/-- How a known key is entered, and the field that it is entered into. -/
structure Port (key : String) (enter : Doc → Arguments → Decode Arguments) where
  {Held : Type}
  codec : Codec Held
  put : Arguments → Option Held → Arguments
  held : Arguments → Option Held
  enter_eq : ∀ doc arguments, enter doc arguments = put arguments <$> doc.optional codec.read
  slots_put : ∀ arguments found,
    (put arguments found).slots = fill key (found.map codec.write) arguments.slots
  extra_put : ∀ arguments found, (put arguments found).extra = arguments.extra
  get?_slots : ∀ arguments,
    Entries.get? arguments.slots key = some ((held arguments).map codec.write)

theorem lookup_eq_none_iff (key : String) :
    shape.fields.lookup key = none ↔ key ∉ knownKeys := by
  have hkeys : knownKeys = shape.fields.map (·.1) := rfl
  rw [List.lookup_eq_none_iff, hkeys, List.mem_map, not_exists]
  constructor
  · rintro h port ⟨hport, rfl⟩
    simpa using h port hport
  · intro h port hport
    have hne : key ≠ port.1 := fun heq => h port ⟨hport, heq.symm⟩
    simpa using hne

theorem mem_knownKeys_of_lookup {key : String} {enter : Doc → Arguments → Decode Arguments}
    (h : shape.fields.lookup key = some enter) : key ∈ knownKeys := by
  by_contra hkey
  rw [(lookup_eq_none_iff key).mpr hkey] at h
  cases h

theorem exists_port {key : String} {enter : Doc → Arguments → Decode Arguments}
    (h : shape.fields.lookup key = some enter) : Nonempty (Port key enter) := by
  have hkey := mem_knownKeys_of_lookup h
  have hsame (found : Option Json) : found.map Codec.value.write = found := by
    cases found <;> rfl
  simp only [knownKeys, List.mem_cons, List.not_mem_nil, or_false] at hkey
  rcases hkey with rfl | rfl | rfl | rfl | rfl | rfl | rfl | rfl
    <;> obtain rfl := Option.some.inj h
  · exact ⟨.fields, fun arguments found => { arguments with condition := found }, (·.condition),
      fun _ _ => rfl, fun _ _ => rfl, fun _ _ => rfl, fun _ => rfl⟩
  · exact ⟨.fields, fun arguments found => { arguments with selected := found }, (·.selected),
      fun _ _ => rfl, fun _ _ => rfl, fun _ _ => rfl, fun _ => rfl⟩
  · exact ⟨.fields, fun arguments found => { arguments with included := found }, (·.included),
      fun _ _ => rfl, fun _ _ => rfl, fun _ _ => rfl, fun _ => rfl⟩
  · exact ⟨.word, fun arguments found => { arguments with skip := found }, (·.skip),
      fun _ _ => rfl, fun _ _ => rfl, fun _ _ => rfl, fun _ => rfl⟩
  · exact ⟨.word, fun arguments found => { arguments with take := found }, (·.take),
      fun _ _ => rfl, fun _ _ => rfl, fun _ _ => rfl, fun _ => rfl⟩
  · exact ⟨.value, fun arguments found => { arguments with orderBy := found }, (·.orderBy),
      fun _ _ => rfl, fun _ found => by rw [hsame found]; rfl, fun _ _ => rfl,
      fun arguments => by rw [hsame arguments.orderBy]; rfl⟩
  · exact ⟨.value, fun arguments found => { arguments with data := found }, (·.data),
      fun _ _ => rfl, fun _ found => by rw [hsame found]; rfl, fun _ _ => rfl,
      fun arguments => by rw [hsame arguments.data]; rfl⟩
  · exact ⟨.fields, fun arguments found => { arguments with aggregate := found }, (·.aggregate),
      fun _ _ => rfl, fun _ _ => rfl, fun _ _ => rfl, fun _ => rfl⟩

/-- Entering a value at a known key fills its slot. -/
theorem Port.slots_of_enter {key : String} {enter : Doc → Arguments → Decode Arguments}
    (port : Port key enter) {value : Json} (hvalue : value.Ordered) {arguments later : Arguments}
    (h : enter (.ofJson value) arguments = .ok later) :
    later.slots = fill key value.nonNull? arguments.slots ∧ later.extra = arguments.extra := by
  rw [port.enter_eq, map_eq_ok] at h
  obtain ⟨found, hfound, rfl⟩ := h
  rw [port.slots_put, port.codec.map_of_optional hvalue hfound]
  exact ⟨rfl, port.extra_put arguments found⟩

/-- What the slots hold after some entries have been entered. -/
def fillAll (entries : Fields) (slots : List (String × Option Json)) :
    List (String × Option Json) :=
  slots.map fun slot => match entries.get? slot.1 with
    | some value => (slot.1, value.nonNull?)
    | none => slot

theorem fillAll_cons_of_mem {key : String} {value : Json} {rest : Fields}
    (habsent : rest.get? key = none) (slots : List (String × Option Json)) :
    fillAll rest (fill key value.nonNull? slots) = fillAll ((key, value) :: rest) slots := by
  unfold fillAll fill
  rw [List.map_map]
  refine List.map_congr_left fun slot _ => ?_
  by_cases hslot : slot.1 = key
  · simp [hslot, Entries.get?, habsent]
  · simp [hslot, Entries.get?]

theorem fillAll_cons_of_notMem {key : String} (value : Json) (rest : Fields)
    {slots : List (String × Option Json)} (hkey : key ∉ slots.map (·.1)) :
    fillAll rest slots = fillAll ((key, value) :: rest) slots := by
  refine List.map_congr_left fun slot hslot => ?_
  have hne : slot.1 ≠ key := by
    rintro rfl
    exact hkey (List.mem_map_of_mem hslot)
  simp [Entries.get?, hne]

theorem keys_slots (arguments : Arguments) : arguments.slots.map (·.1) = knownKeys := rfl

/-- An entry under another key is kept as it is. -/
theorem stray_eq (key : String) {value : Json} (hvalue : value.Ordered) (arguments : Arguments) :
    shape.stray key (.ofJson value) arguments = .ok (arguments.set key value) := by
  simp only [shape, Doc.value, Doc.toJson_ofJson hvalue]
  rfl

/-- The induction is on the entries: each known key comes up once and fills its slot, and each other
one goes to the rest. -/
theorem readEntries_eq {entries : Fields} (h : (Json.obj entries).Ordered)
    {arguments later : Arguments} {seen known : List String}
    (hread : shape.readEntries arguments seen (Doc.ofEntries entries) = .ok (later, known)) :
    later.slots = fillAll entries arguments.slots ∧
      later.extra = arguments.extra.insertAll (entries.filter (·.1 ∉ knownKeys)) := by
  obtain ⟨hsorted, hvalues⟩ := (Json.ordered_obj entries).mp h
  clear h
  induction entries generalizing arguments seen with
  | nil =>
    obtain ⟨rfl, -⟩ := Prod.mk.inj (Except.ok.inj hread)
    simp [fillAll, Entries.get?, Entries.insertAll]
  | cons entry rest ih =>
    obtain ⟨key, value⟩ := entry
    obtain ⟨hhead, htail⟩ := List.pairwise_cons.mp hsorted
    obtain ⟨hvalue, hrest⟩ := List.forall_mem_cons.mp hvalues
    have habsent : Entries.get? rest key = none := (Entries.get?_eq_none_iff rest key).mpr
      fun later hlater => (String.ne_of_lt (hhead later hlater)).symm
    rw [Doc.ofEntries, RecordShape.readEntries] at hread
    cases hlookup : shape.fields.lookup key with
    | some enter =>
      have hkey := mem_knownKeys_of_lookup hlookup
      simp only [hlookup] at hread
      split at hread
      · cases hread
      · obtain ⟨first, hfirst, hlater⟩ := (bind_eq_ok _ _ _).mp hread
        obtain ⟨port⟩ := exists_port hlookup
        obtain ⟨hslots, hextra⟩ := port.slots_of_enter hvalue hfirst
        obtain ⟨hlaterSlots, hlaterExtra⟩ := ih hlater htail hrest
        rw [hslots, fillAll_cons_of_mem habsent] at hlaterSlots
        rw [hextra] at hlaterExtra
        exact ⟨hlaterSlots, by simpa [hkey] using hlaterExtra⟩
    | none =>
      have hkey := (lookup_eq_none_iff key).mp hlookup
      simp only [hlookup, stray_eq key hvalue] at hread
      obtain ⟨hlaterSlots, hlaterExtra⟩ := ih hread htail hrest
      constructor
      · rw [hlaterSlots]
        exact fillAll_cons_of_notMem value rest (by rwa [keys_slots])
      · rw [hlaterExtra]
        simp [hkey, set, Entries.insertAll]

theorem decode_obj_eq_ok (entries : Fields) (arguments : Arguments) :
    (Json.obj entries).decode decode = .ok arguments ↔
      ∃ known, shape.readEntries {} [] (Doc.ofEntries entries) = .ok (arguments, known) := by
  have hrequired : ∀ known : List String, ∀ field ∈ shape.required, field ∈ known := by simp [shape]
  rw [Json.decode, Doc.ofJson, decode, RecordShape.decodeEntries_eq_ok_iff]
  exact exists_congr fun known => and_iff_left (hrequired known)

/-- An object is read as what stands under the known keys and the entries under the others. -/
theorem slots_of_decode {entries : Fields} (h : (Json.obj entries).Ordered) {arguments : Arguments}
    (hdecode : (Json.obj entries).decode decode = .ok arguments) :
    arguments.slots = knownKeys.map (fun key => (key, Fields.present? entries key)) ∧
      arguments.extra = entries.filter (·.1 ∉ knownKeys) := by
  obtain ⟨known, hread⟩ := (decode_obj_eq_ok entries arguments).mp hdecode
  obtain ⟨hslots, hextra⟩ := readEntries_eq h hread
  have hblank : ({} : Arguments).slots = knownKeys.map fun key => (key, none) := rfl
  have hsorted : Entries.Sorted (entries.filter (·.1 ∉ knownKeys)) :=
    h.sorted.filter _
  constructor
  · rw [hslots, hblank, fillAll, List.map_map]
    refine List.map_congr_left fun key _ => ?_
    cases hget : entries.get? key with
    | none => simp [hget, Fields.present?]
    | some value => simp [hget, Fields.present?, Json.nonNull?]
  · rw [hextra]
    exact hsorted.ofList_eq

theorem get?_present {slots : List (String × Option Json)} (h : (slots.map (·.1)).Nodup)
    (key : String) :
    Entries.get? (present slots) key = (Entries.get? slots key).join := by
  induction slots with
  | nil => rfl
  | cons slot rest ih =>
    obtain ⟨k, held⟩ := slot
    obtain ⟨hhead, htail⟩ := List.nodup_cons.mp h
    have hrest := ih htail
    by_cases hk : key = k
    · subst hk
      have habsent : Entries.get? rest key = none := (Entries.get?_eq_none_iff rest key).mpr
        fun later hlater heq => hhead (List.mem_map.mpr ⟨later, hlater, heq⟩)
      rw [habsent] at hrest
      cases held with
      | none => simpa [present, Entries.get?] using hrest
      | some value => simp [present, Entries.get?]
    · cases held with
      | none => simpa [present, Entries.get?, hk] using hrest
      | some value => simpa [present, Entries.get?, hk] using hrest

theorem nodup_keys_present {slots : List (String × Option Json)} (h : (slots.map (·.1)).Nodup) :
    ((present slots).map (·.1)).Nodup := by
  induction slots with
  | nil => exact .nil
  | cons slot rest ih =>
    obtain ⟨k, held⟩ := slot
    obtain ⟨hhead, htail⟩ := List.nodup_cons.mp h
    cases held with
    | none => exact ih htail
    | some value =>
      refine List.nodup_cons.mpr ⟨fun hmem => ?_, ih htail⟩
      obtain ⟨⟨other, first⟩, hpresent, rfl⟩ := List.mem_map.mp hmem
      exact hhead (mem_keys_of_mem_present hpresent)

theorem Apart.get?_extra {arguments : Arguments} (h : arguments.Apart) {key : String}
    (hkey : key ∈ knownKeys) : arguments.extra.get? key = none :=
  (Entries.get?_eq_none_iff arguments.extra key).mpr fun entry hentry heq =>
    h entry hentry (heq ▸ hkey)

/-- Written arguments have each slot under its key and the other entries beside them. -/
theorem get?_ofList_entries {arguments : Arguments} (h : arguments.Apart)
    (hextra : arguments.extra.Sorted) (key : String) :
    (Entries.ofList arguments.entries).get? key =
      if key ∈ knownKeys then (Entries.get? arguments.slots key).join
      else arguments.extra.get? key := by
  have hnodup : (arguments.slots.map (·.1)).Nodup := by
    rw [keys_slots]
    decide
  have hentries : arguments.entries = present arguments.slots ++ arguments.extra := rfl
  have hnothing : Entries.get? ([] : Fields) key = none := rfl
  rw [hentries, Entries.ofList, Entries.insertAll_append,
    Entries.get?_insertAll _ hextra.nodup_keys,
    Entries.get?_insertAll _ (nodup_keys_present hnodup), get?_present hnodup, hnothing, Option.or_none]
  split
  · rename_i hkey
    rw [h.get?_extra hkey, Option.none_or]
  · rename_i hkey
    have habsent : Entries.get? arguments.slots key = none :=
      (Entries.get?_eq_none_iff arguments.slots key).mpr fun slot hslot heq =>
        hkey (heq ▸ List.mem_map_of_mem hslot)
    rw [habsent, Option.join_none, Option.or_none]

theorem get?_map_of_mem {keys : List String} (found : String → Option Json) {key : String}
    (h : key ∈ keys) : Entries.get? (keys.map fun key => (key, found key)) key =
      some (found key) := by
  induction keys with
  | nil => cases h
  | cons first rest ih =>
    by_cases hfirst : key = first
    · simp [Entries.get?, hfirst]
    · simpa [Entries.get?, hfirst] using ih ((List.mem_cons.mp h).resolve_left hfirst)

/-- What is read is written as it stood, but for the known keys with null. -/
theorem toJson_of_decode {entries : Fields} (h : (Json.obj entries).Ordered) {arguments : Arguments}
    (hdecode : (Json.obj entries).decode decode = .ok arguments) :
    arguments.toJson =
      .obj (entries.filter fun entry => !(entry.1 ∈ knownKeys && entry.2.isNull)) := by
  obtain ⟨hslots, hextra⟩ := slots_of_decode h hdecode
  have hextraSorted : arguments.extra.Sorted := by
    rw [hextra]
    exact h.sorted.filter _
  have hapart : arguments.Apart := by
    intro entry hentry
    rw [hextra] at hentry
    simpa using (List.mem_filter.mp hentry).2
  have hnil : Entries.Sorted ([] : Fields) := .nil
  refine congrArg Json.obj (Entries.Sorted.ext (hnil.insertAll _) (h.sorted.filter _)
    fun key => ?_)
  rw [get?_ofList_entries hapart hextraSorted, h.sorted.get?_filter]
  by_cases hkey : key ∈ knownKeys
  · rw [if_pos hkey, hslots, get?_map_of_mem _ hkey]
    simp [hkey, Fields.present?]
  · rw [if_neg hkey, hextra, h.sorted.get?_filter]
    simp [hkey]

/-- The values of arguments, and the order of their other keys. -/
def Ordered (arguments : Arguments) : Prop :=
  arguments.extra.Sorted ∧ ∀ entry ∈ arguments.entries, entry.2.Ordered

theorem isNull_of_slot {arguments : Arguments} (hdata : arguments.data ≠ some .null)
    (horder : arguments.orderBy ≠ some .null) {key : String} {value : Json}
    (h : (Entries.get? arguments.slots key).join = some value) : value.isNull = false := by
  have hmem : (key, some value) ∈ arguments.slots :=
    Entries.mem_of_get? (Option.join_eq_some_iff.mp h)
  have hmapped {α : Type} {held : Option α} {write : α → Json} (hheld : some value = held.map write)
      (hwrite : ∀ found, (write found).isNull = false) : value.isNull = false := by
    obtain ⟨found, -, rfl⟩ := Option.map_eq_some_iff.mp hheld.symm
    exact hwrite found
  have hgiven {held : Option Json} (hheld : some value = held) (hne : held ≠ some .null) :
      value.isNull = false := by
    subst hheld
    cases value <;> simp [Json.isNull] at hne ⊢
  simp only [slots, List.mem_cons, Prod.mk.injEq, List.not_mem_nil, or_false] at hmem
  rcases hmem with h | h | h | h | h | h | h | h
  · exact hmapped h.2 fun _ => rfl
  · exact hmapped h.2 fun _ => rfl
  · exact hmapped h.2 fun _ => rfl
  · exact hmapped h.2 fun _ => rfl
  · exact hmapped h.2 fun _ => rfl
  · exact hgiven h.2 horder
  · exact hgiven h.2 hdata
  · exact hmapped h.2 fun _ => rfl

/-- A known key stands in written arguments where its field holds something. -/
theorem present?_ofList_entries {arguments : Arguments} (hextra : arguments.extra.Sorted)
    (hapart : arguments.Apart) (hdata : arguments.data ≠ some .null)
    (horder : arguments.orderBy ≠ some .null) {key : String} (hkey : key ∈ knownKeys) :
    Fields.present? (Entries.ofList arguments.entries) key =
      (Entries.get? arguments.slots key).join := by
  rw [Fields.present?, get?_ofList_entries hapart hextra, if_pos hkey]
  cases hslot : (Entries.get? arguments.slots key).join with
  | none => rfl
  | some value => simp [Option.filter, isNull_of_slot hdata horder hslot]

theorem exists_optional_fields (found : Fields) :
    ∃ read, (Doc.ofJson (.obj found)).optional Doc.fields = .ok read := by
  obtain ⟨values, hvalues⟩ := Doc.exists_toEntries found
  have hread : (Doc.ofJson (.obj found)).fields = .ok (Entries.ofList values) := by
    rw [Doc.ofJson, Doc.fields, hvalues]
    rfl
  exact ⟨some (Entries.ofList values),
    (Codec.fields.optional_of_not_null rfl).trans (congrArg (some <$> ·) hread)⟩

theorem exists_optional_signed (found : Int64) :
    ∃ read, (Doc.ofJson (.int found.toInt)).optional Doc.signed = .ok read :=
  ⟨some found, Codec.word.optional_of_write (.num _) rfl⟩

theorem exists_optional_value (found : Json) :
    ∃ read, (Doc.ofJson found).optional Doc.value = .ok read := by
  cases hnull : found.isNull with
  | true =>
    obtain rfl : found = .null := by cases found <;> simp [Json.isNull] at hnull ⊢
    exact ⟨none, rfl⟩
  | false =>
    obtain ⟨read, hread⟩ := Doc.exists_toJson found
    exact ⟨some read, (Codec.value.optional_of_not_null hnull).trans
      (congrArg (some <$> Decode.ofSource ·) hread)⟩

/-- What a slot holds is written so that its key can read it. -/
theorem enters_of_mem_slots {arguments : Arguments} {key : String} {value : Json}
    (h : (key, some value) ∈ arguments.slots) : shape.Enters (key, value) := by
  have hset {α : Type} {read : Doc → Decode α} (hread : ∃ found, read (.ofJson value) = .ok found)
      (put : Arguments → α → Arguments) (record : Arguments) :
      ∃ later, (do return put record (← read (.ofJson value)) : Decode Arguments) = .ok later := by
    obtain ⟨found, hfound⟩ := hread
    exact ⟨put record found, (bind_eq_ok _ _ _).mpr ⟨found, hfound, rfl⟩⟩
  have hfields {held : Option Fields} (hheld : some value = held.map .obj) :
      ∃ found, (Doc.ofJson value).optional Doc.fields = .ok found := by
    obtain ⟨found, -, rfl⟩ := Option.map_eq_some_iff.mp hheld.symm
    exact exists_optional_fields found
  have hword {held : Option Int64} (hheld : some value = held.map (.int ·.toInt)) :
      ∃ found, (Doc.ofJson value).optional Doc.signed = .ok found := by
    obtain ⟨found, -, rfl⟩ := Option.map_eq_some_iff.mp hheld.symm
    exact exists_optional_signed found
  have hvalue := exists_optional_value value
  simp only [slots, List.mem_cons, Prod.mk.injEq, List.not_mem_nil, or_false] at h
  rcases h with ⟨rfl, h⟩ | ⟨rfl, h⟩ | ⟨rfl, h⟩ | ⟨rfl, h⟩ | ⟨rfl, h⟩ | ⟨rfl, -⟩ | ⟨rfl, -⟩ | ⟨rfl, h⟩
  · exact hset (hfields h) fun record found => { record with condition := found }
  · exact hset (hfields h) fun record found => { record with selected := found }
  · exact hset (hfields h) fun record found => { record with included := found }
  · exact hset (hword h) fun record found => { record with skip := found }
  · exact hset (hword h) fun record found => { record with take := found }
  · exact hset hvalue fun record found => { record with orderBy := found }
  · exact hset hvalue fun record found => { record with data := found }
  · exact hset (hfields h) fun record found => { record with aggregate := found }

/-- Written arguments can be read, whatever they hold. -/
theorem exists_decode_toJson {arguments : Arguments} (h : arguments.Apart)
    (hextra : arguments.extra.Sorted) : ∃ read, arguments.toJson.decode decode = .ok read := by
  have hsorted : (Entries.ofList arguments.entries).Sorted := Entries.Sorted.insertAll .nil _
  have henters : ∀ entry ∈ Entries.ofList arguments.entries, shape.Enters entry := by
    rintro ⟨key, value⟩ hentry
    have hget := get?_ofList_entries h hextra key
    rw [hsorted.get?_of_mem hentry] at hget
    split at hget
    · exact enters_of_mem_slots (Entries.mem_of_get? (Option.join_eq_some_iff.mp hget.symm))
    · rename_i hkey
      obtain ⟨read, hread⟩ := Doc.exists_toJson value
      unfold RecordShape.Enters
      rw [(lookup_eq_none_iff key).mpr hkey]
      refine fun record => ⟨record.set key read, (bind_eq_ok _ _ _).mpr ⟨read, ?_, rfl⟩⟩
      rw [Doc.value, hread]
      rfl
  have hunseen : ∀ entry ∈ Entries.ofList arguments.entries, entry.1 ∉ ([] : List String) := by
    simp
  obtain ⟨⟨read, known⟩, hread⟩ :=
    RecordShape.exists_readEntries hsorted.nodup_keys henters hunseen {}
  exact ⟨read, (decode_obj_eq_ok _ read).mpr ⟨known, hread⟩⟩

/-- Arguments without a null in a known field are read as they were written. -/
theorem decode_toJson {arguments : Arguments} (h : arguments.Ordered) (hapart : arguments.Apart)
    (hdata : arguments.data ≠ some .null) (horder : arguments.orderBy ≠ some .null) :
    arguments.toJson.decode decode = .ok arguments := by
  obtain ⟨hextra, hvalues⟩ := h
  have hobj : (Json.obj (Entries.ofList arguments.entries)).Ordered :=
    Json.Ordered.insertAll (.obj .nil (by simp)) hvalues
  have hget := get?_ofList_entries hapart hextra
  obtain ⟨later, hdecode⟩ := exists_decode_toJson hapart hextra
  obtain ⟨hslots, hlaterExtra⟩ := slots_of_decode hobj hdecode
  have hsame : later = arguments := by
    apply slots_injective
    · have hown : arguments.slots =
          knownKeys.map fun key => (key, (Entries.get? arguments.slots key).join) := rfl
      rw [hslots, hown]
      refine List.map_congr_left fun key hkey => ?_
      rw [present?_ofList_entries hextra hapart hdata horder hkey]
    · rw [hlaterExtra]
      refine (hobj.sorted.filter _).ext hextra fun key => ?_
      rw [hobj.sorted.get?_filter, hget key]
      by_cases hkey : key ∈ knownKeys
      · simp [hkey, hapart.get?_extra hkey]
      · cases arguments.extra.get? key <;> simp [hkey, Option.filter]
  rw [hdecode, hsame]

end Arguments

namespace Request

open Arguments

theorem hasAny_eq_true_iff (fields : Fields) (keys : List String) :
    hasAny fields keys = true ↔ ∃ key ∈ keys, fields.present? key ≠ none := by
  simp [hasAny, Option.isSome_iff_ne_none]

/-- A value that is told to be native is an object, and decodes as the arguments. -/
theorem exists_of_sniff_native {value : Json} {arguments : Arguments}
    (h : sniff value = .ok (.native arguments)) :
    ∃ fields, value = .obj fields ∧ value.decode Arguments.decode = .ok arguments := by
  rcases exists_of_sniff h with
    ⟨fields, options, -, -, hother⟩ | ⟨fields, read, rfl, hdecode, hsame⟩ | hother
  · cases hother
  · cases hsame
    exact ⟨fields, rfl, hdecode⟩
  · cases hother

/-- Written as a value, arguments that ask for something by a native key and by no shorthand key are
told to be native and read as they were. A value that is told to be native is written as it was, but
for the known keys with null. -/
theorem native_survives_json :
    (∀ arguments : Arguments, arguments.Ordered → arguments.Apart →
      (∀ key ∈ shorthandKeys, Fields.present? arguments.extra key = none) →
      arguments.data ≠ some .null → arguments.orderBy ≠ some .null →
      (arguments.condition.isSome ∨ arguments.selected.isSome ∨ arguments.included.isSome ∨
        arguments.data.isSome) →
      sniff arguments.toJson = .ok (.native arguments)) ∧
    ∀ (value : Json) (arguments : Arguments), value.Ordered →
      sniff value = .ok (.native arguments) →
      ∃ fields, value = .obj fields ∧ arguments.toJson =
        .obj (fields.filter fun entry => !(entry.1 ∈ knownKeys && entry.2.isNull)) := by
  constructor
  · intro arguments hordered hapart hshorthand hdata horder hnative
    have hwritten : arguments.toJson = .obj (Entries.ofList arguments.entries) := rfl
    have hunlike : hasAny (Entries.ofList arguments.entries) shorthandKeys ≠ true := by
      rw [Ne, hasAny_eq_true_iff]
      rintro ⟨key, hkey, hpresent⟩
      have hother : ∀ key ∈ shorthandKeys, key ∉ knownKeys := by decide
      rw [Fields.present?, get?_ofList_entries hapart hordered.1, if_neg (hother key hkey)]
        at hpresent
      exact hpresent (hshorthand key hkey)
    have hlike : hasAny (Entries.ofList arguments.entries) nativeKeys = true := by
      have hheld : ∃ key ∈ nativeKeys, (Entries.get? arguments.slots key).join ≠ none := by
        simp only [Option.isSome_iff_ne_none] at hnative
        rcases hnative with h | h | h | h
        · exact ⟨"where", by decide, by simpa [slots, Entries.get?] using h⟩
        · exact ⟨"select", by decide, by simpa [slots, Entries.get?] using h⟩
        · exact ⟨"include", by decide, by simpa [slots, Entries.get?] using h⟩
        · exact ⟨"data", by decide, by simpa [slots, Entries.get?] using h⟩
      obtain ⟨key, hkey, hholds⟩ := hheld
      have hknown : ∀ key ∈ nativeKeys, key ∈ knownKeys := by decide
      refine (hasAny_eq_true_iff _ _).mpr ⟨key, hkey, ?_⟩
      rw [present?_ofList_entries hordered.1 hapart hdata horder (hknown key hkey)]
      exact hholds
    rw [hwritten, sniff, if_neg hunlike, if_pos hlike, ← hwritten,
      decode_toJson hordered hapart hdata horder]
    rfl
  · intro value arguments hvalue hsniff
    obtain ⟨fields, rfl, hdecode⟩ := exists_of_sniff_native hsniff
    exact ⟨fields, rfl, toJson_of_decode hvalue hdecode⟩

/-- A cursor and a null among the other keys stay, and a null under a known key goes. -/
theorem native_survives_json_beside_nulls :
    let arguments : Arguments :=
      { condition := some [("id", .num (.int 1))]
        take := some (-5)
        extra := [("cursor", .obj [("id", .num (.int 10))]), ("distinct", .null)] }
    let value : Json := .obj [("cursor", .obj [("id", .num (.int 10))]), ("data", .null),
      ("distinct", .null), ("take", .num (.int (-5))), ("where", .obj [("id", .num (.int 1))])]
    sniff arguments.toJson = .ok (.native arguments) ∧
      sniff value = .ok (.native arguments) ∧
      ∃ fields, value = .obj fields ∧ arguments.toJson =
        .obj (fields.filter fun entry => !(entry.1 ∈ knownKeys && entry.2.isNull)) := by
  intro arguments value
  obtain ⟨hwritten, hread⟩ := native_survives_json
  have hordered : arguments.Ordered := ⟨by decide, by decide⟩
  have hshorthand : ∀ key ∈ shorthandKeys, Fields.present? arguments.extra key = none := by decide
  have hvalue : value.Ordered := by decide
  have hsniff : sniff value = .ok (.native arguments) := rfl
  refine ⟨?_, hsniff, hread value arguments hvalue hsniff⟩
  exact hwritten arguments hordered (by decide) hshorthand (by decide) (by decide) (.inl rfl)

end Request

end RecordQuery
