import RecordQuery.Proofs.Entries
import RecordQuery.Proofs.Parts
import RecordQuery.Request

/-!
# Reading records

A record is read from the entries of an object one after the other. Each field that has an entry is
set by it and by nothing else, so the record holds at the end what is read at the key of each field,
or what it held before where the key does not stand. The entries are read to their end if each of
them can be entered.
-/

namespace RecordQuery

namespace Doc

mutual

/-- A value can always be passed over. -/
theorem skip_ofJson : ∀ value : Json, (ofJson value).skip = .ok ()
  | .null | .bool _ | .num _ | .str _ => by simp [ofJson, skip]
  | .arr items => by
    rw [ofJson, skip, skipItems_ofItems items]
    rfl
  | .obj entries => by
    rw [ofJson, skip, skipEntries_ofEntries entries]
    rfl

theorem skipItems_ofItems : ∀ items : List Json, skipItems (ofItems items) = .ok ()
  | [] => by simp [ofItems, skipItems]
  | item :: rest => by
    rw [ofItems, skipItems, skip_ofJson item]
    exact skipItems_ofItems rest

theorem skipEntries_ofEntries : ∀ entries : List (String × Json),
    skipEntries (ofEntries entries) = .ok ()
  | [] => by simp [ofEntries, skipEntries]
  | (key, value) :: rest => by
    rw [ofEntries, skipEntries, skip_ofJson value]
    exact skipEntries_ofEntries rest

end

mutual

/-- So can it always be read, the last of the entries with one key staying. -/
theorem exists_toJson : ∀ value : Json, ∃ read, (ofJson value).toJson = .ok read
  | .null | .bool _ | .num _ | .str _ => by simp [ofJson, toJson]
  | .arr items => by
    obtain ⟨values, hvalues⟩ := exists_toItems items
    exact ⟨.arr values, by rw [ofJson, toJson, hvalues]; rfl⟩
  | .obj entries => by
    obtain ⟨values, hvalues⟩ := exists_toEntries entries
    exact ⟨.obj (Entries.ofList values), by rw [ofJson, toJson, hvalues]; rfl⟩

theorem exists_toItems : ∀ items : List Json, ∃ read, toItems (ofItems items) = .ok read
  | [] => ⟨[], by rw [ofItems, toItems]⟩
  | item :: rest => by
    obtain ⟨first, hfirst⟩ := exists_toJson item
    obtain ⟨more, hmore⟩ := exists_toItems rest
    exact ⟨first :: more, by rw [ofItems, toItems, hfirst, hmore]; rfl⟩

theorem exists_toEntries : ∀ entries : List (String × Json),
    ∃ read, toEntries (ofEntries entries) = .ok read
  | [] => ⟨[], by rw [ofEntries, toEntries]⟩
  | (key, value) :: rest => by
    obtain ⟨first, hfirst⟩ := exists_toJson value
    obtain ⟨more, hmore⟩ := exists_toEntries rest
    exact ⟨(key, first) :: more, by rw [ofEntries, toEntries, hfirst, hmore]; rfl⟩

end

theorem ofEntries_eq_map (entries : List (String × Json)) :
    ofEntries entries = entries.map fun entry => (entry.1, ofJson entry.2) := by
  induction entries with
  | nil => rfl
  | cons entry rest ih => rw [ofEntries, ih, List.map_cons]

theorem keys_ofEntries (entries : List (String × Json)) :
    (ofEntries entries).map (·.1) = entries.map (·.1) := by
  rw [ofEntries_eq_map, List.map_map]
  rfl

theorem nodup_keys_ofEntries {entries : Fields} (h : entries.Sorted) :
    ((ofEntries entries).map (·.1)).Nodup := by
  rw [keys_ofEntries]
  exact h.nodup_keys

theorem get?_ofEntries (entries : Fields) (key : String) :
    Entries.get? (ofEntries entries) key = (entries.get? key).map ofJson := by
  rw [ofEntries_eq_map, Entries.get?_map]

/-- What is read at a key, or what is held for it where it does not stand. -/
def readAt {β : Type} (docs : Entries Doc) (read : Doc → Decode β) (key : String) (held : β) :
    Decode β :=
  match docs.get? key with
  | some doc => read doc
  | none => .ok held

theorem readAt_ofEntries {β : Type} (entries : Fields) (read : Doc → Decode β) (key : String)
    (held : β) :
    readAt (ofEntries entries) read key held =
      match entries.get? key with
      | some value => read (.ofJson value)
      | none => .ok held := by
  rw [readAt, get?_ofEntries]
  cases entries.get? key <;> rfl

end Doc

namespace RecordShape

variable {α β : Type} {shape : RecordShape α}

/-- An entry that is passed over leaves the record as it is. -/
theorem eq_of_pass {doc : Doc} {record later : α}
    (h : (do Decode.ofSource doc.skip; return record) = .ok later) : later = record := by
  obtain ⟨-, -, hlater⟩ := exists_of_bind_pure h
  exact hlater.symm

/-- One field of a record: the entry under its key sets it, and no other entry changes it. -/
structure Field (shape : RecordShape α) (key : String) (β : Type) where
  enter : Doc → α → Decode α
  lookup_eq : shape.fields.lookup key = some enter
  read : Doc → Decode β
  get : α → β
  read_of_enter : ∀ {doc record later}, enter doc record = .ok later → read doc = .ok (get later)
  get_of_other : ∀ other ∈ shape.fields, other.1 ≠ key → ∀ {doc record later},
    other.2 doc record = .ok later → get later = get record
  get_of_stray : ∀ {other doc record later},
    shape.stray other doc record = .ok later → get later = get record

theorem mem_fields_of_lookup {key : String} {enter : Doc → α → Decode α}
    (h : shape.fields.lookup key = some enter) : (key, enter) ∈ shape.fields := by
  obtain ⟨before, after, hfields, -⟩ := List.lookup_eq_some_iff.mp h
  rw [hfields]
  exact List.mem_append_right before List.mem_cons_self

/-- Reading goes through the entries in their order, so the induction is on them. -/
theorem Field.readAt_of_readEntries {key : String} (field : Field shape key β) {docs : Entries Doc}
    (hkeys : (docs.map (·.1)).Nodup) {record later : α} {seen known : List String}
    (h : shape.readEntries record seen docs = .ok (later, known)) :
    Doc.readAt docs field.read key (field.get record) = .ok (field.get later) := by
  induction docs generalizing record seen with
  | nil =>
    obtain ⟨rfl, -⟩ := Prod.mk.inj (Except.ok.inj h)
    rfl
  | cons entry rest ih =>
    obtain ⟨k, doc⟩ := entry
    obtain ⟨hhead, htail⟩ := List.nodup_cons.mp hkeys
    have hskipped : ∀ {first : α}, k ≠ key → field.get first = field.get record →
        Doc.readAt rest field.read key (field.get first) = .ok (field.get later) →
        Doc.readAt ((k, doc) :: rest) field.read key (field.get record) =
          .ok (field.get later) := by
      intro first hk hfirst hrest
      rw [← hfirst, ← hrest, Doc.readAt, Doc.readAt, Entries.get?, if_neg hk.symm]
    rw [readEntries] at h
    cases hlookup : shape.fields.lookup k with
    | some enter =>
      simp only [hlookup] at h
      split at h
      · cases h
      · obtain ⟨first, hfirst, hrest⟩ := (bind_eq_ok _ _ _).mp h
        have hread := ih htail hrest
        by_cases hk : k = key
        · subst hk
          obtain rfl := Option.some.inj (hlookup.symm.trans field.lookup_eq)
          have habsent : Entries.get? rest k = none := (Entries.get?_eq_none_iff rest k).mpr
            fun other hother heq => hhead (List.mem_map.mpr ⟨other, hother, heq⟩)
          have hsame : field.get first = field.get later := by
            rw [Doc.readAt, habsent] at hread
            exact Except.ok.inj hread
          rw [Doc.readAt, Entries.get?, if_pos rfl, ← hsame]
          exact field.read_of_enter hfirst
        · exact hskipped hk (field.get_of_other _ (mem_fields_of_lookup hlookup) hk hfirst) hread
    | none =>
      simp only [hlookup] at h
      obtain ⟨first, hfirst, hrest⟩ := (bind_eq_ok _ _ _).mp h
      have hk : k ≠ key := by
        rintro rfl
        cases hlookup.symm.trans field.lookup_eq
      exact hskipped hk (field.get_of_stray hfirst) (ih htail hrest)

/-- What is true of all that a field reads, and of what it holds before, is true of it at the end. -/
theorem Field.of_readEntries {key : String} (field : Field shape key β) {docs : Entries Doc}
    (hkeys : (docs.map (·.1)).Nodup) {record later : α} {seen known : List String}
    (h : shape.readEntries record seen docs = .ok (later, known)) {P : β → Prop}
    (hheld : P (field.get record)) (hread : ∀ {doc found}, field.read doc = .ok found → P found) :
    P (field.get later) := by
  have hlater := field.readAt_of_readEntries hkeys h
  unfold Doc.readAt at hlater
  split at hlater
  · exact hread hlater
  · exact Except.ok.inj hlater ▸ hheld

/-- The fields that have been read are those whose keys stand among the entries. -/
theorem mem_known_iff {docs : List (String × Doc)} {record later : α} {seen known : List String}
    (h : shape.readEntries record seen docs = .ok (later, known)) (key : String) :
    key ∈ known ↔
      key ∈ seen ∨ key ∈ docs.map (·.1) ∧ (shape.fields.lookup key).isSome = true := by
  induction docs generalizing record seen with
  | nil =>
    obtain ⟨-, rfl⟩ := Prod.mk.inj (Except.ok.inj h)
    simp
  | cons entry rest ih =>
    obtain ⟨k, doc⟩ := entry
    rw [readEntries] at h
    cases hlookup : shape.fields.lookup k with
    | some enter =>
      simp only [hlookup] at h
      split at h
      · cases h
      · obtain ⟨first, -, hrest⟩ := (bind_eq_ok _ _ _).mp h
        rw [ih hrest]
        by_cases hk : key = k
        · simp [hk, hlookup]
        · simp [hk]
    | none =>
      simp only [hlookup] at h
      obtain ⟨first, -, hrest⟩ := (bind_eq_ok _ _ _).mp h
      rw [ih hrest]
      by_cases hk : key = k
      · simp [hk, hlookup]
      · simp [hk]

/-- An entry can be entered into any record. -/
def Enters (shape : RecordShape α) (entry : String × Json) : Prop :=
  match shape.fields.lookup entry.1 with
  | some enter => ∀ record, ∃ later, enter (.ofJson entry.2) record = .ok later
  | none => ∀ record, ∃ later, shape.stray entry.1 (.ofJson entry.2) record = .ok later

/-- Entries that can all be entered are read to their end. -/
theorem exists_readEntries {entries : Fields} (hkeys : (entries.map (·.1)).Nodup)
    (henters : ∀ entry ∈ entries, shape.Enters entry) {seen : List String}
    (hunseen : ∀ entry ∈ entries, entry.1 ∉ seen) (record : α) :
    ∃ read, shape.readEntries record seen (Doc.ofEntries entries) = .ok read := by
  induction entries generalizing record seen with
  | nil => exact ⟨_, rfl⟩
  | cons entry rest ih =>
    obtain ⟨key, value⟩ := entry
    obtain ⟨hhead, htail⟩ := List.nodup_cons.mp hkeys
    obtain ⟨hfirst, hrest⟩ := List.forall_mem_cons.mp henters
    obtain ⟨hkey, hlater⟩ := List.forall_mem_cons.mp hunseen
    unfold Enters at hfirst
    rw [Doc.ofEntries, readEntries]
    cases hlookup : shape.fields.lookup key with
    | some enter =>
      simp only [hlookup] at hfirst
      obtain ⟨first, hentered⟩ := hfirst record
      have hunseenLater : ∀ later ∈ rest, later.1 ∉ key :: seen := by
        intro later hmem
        rw [List.mem_cons, not_or]
        exact ⟨fun heq => hhead (List.mem_map.mpr ⟨later, hmem, heq⟩), hlater later hmem⟩
      obtain ⟨read, hread⟩ := ih htail hrest hunseenLater first
      refine ⟨read, ?_⟩
      simp only [if_neg hkey]
      exact (bind_eq_ok _ _ _).mpr ⟨first, hentered, hread⟩
    | none =>
      simp only [hlookup] at hfirst
      obtain ⟨first, hentered⟩ := hfirst record
      obtain ⟨read, hread⟩ := ih htail hrest hlater first
      exact ⟨read, (bind_eq_ok _ _ _).mpr ⟨first, hentered, hread⟩⟩

/-- A record is read from entries if they are read to their end and no required field is missing. -/
theorem decodeEntries_eq_ok_iff (docs : List (String × Doc)) (record : α) :
    shape.decodeEntries docs none = .ok record ↔
      ∃ known, shape.readEntries shape.blank [] docs = .ok (record, known) ∧
        ∀ field ∈ shape.required, field ∈ known := by
  rw [decodeEntries, bind_eq_ok]
  constructor
  · rintro ⟨⟨read, known⟩, hread, h⟩
    simp only [Doc.finish] at h
    obtain ⟨-, -, hrequired⟩ := (bind_eq_ok _ _ _).mp h
    split at hrequired
    · cases hrequired
    · rename_i hnone
      obtain rfl := Except.ok.inj hrequired
      exact ⟨known, hread, by simpa using hnone⟩
  · rintro ⟨known, hread, hknown⟩
    refine ⟨(record, known), hread, ?_⟩
    have hnone : shape.required.find? (· ∉ known) = none := by simpa using hknown
    simp only [hnone]
    rfl

end RecordShape

/-- A request is read from an object by the one shape or the other, or is the value as it is. -/
theorem Request.exists_of_sniff {value : Json} {request : Request}
    (h : sniff value = .ok request) :
    (∃ fields options, value = .obj fields ∧
      (Json.obj fields).decode Shorthand.decode = .ok options ∧ request = .shorthand options) ∨
    (∃ fields arguments, value = .obj fields ∧
      (Json.obj fields).decode Arguments.decode = .ok arguments ∧ request = .native arguments) ∨
    request = .bare value := by
  unfold sniff at h
  split at h
  · rename_i fields
    split at h
    · obtain ⟨options, hoptions, rfl⟩ := exists_of_bind_pure h
      exact .inl ⟨fields, options, rfl, hoptions, rfl⟩
    · split at h
      · obtain ⟨arguments, harguments, rfl⟩ := exists_of_bind_pure h
        exact .inr (.inl ⟨fields, arguments, rfl, harguments, rfl⟩)
      · exact .inr (.inr (Except.ok.inj h).symm)
  · exact .inr (.inr (Except.ok.inj h).symm)

end RecordQuery
