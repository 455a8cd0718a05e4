import RecordQuery.Proofs.Boundary
import RecordQuery.Proofs.Records

/-!
# Pages

A window is read from an object as a page if the object has both numbers of one, and else as an
offset. An offset asks for nothing and passes over the keys of a page. So a page with a number that
no word holds is refused only where the offset beside it is, and is dropped everywhere else.
-/

namespace RecordQuery

theorem Json.nonNull?_eq_none_iff (value : Json) : value.nonNull? = none ↔ value = .null := by
  cases value <;> simp [nonNull?, isNull, Option.filter]

namespace Codec

def count : Codec UInt64 where
  read := Doc.unsigned
  write n := .int n.toNat
  write_of_read := by
    intro value found _ hread
    cases value with
    | num number =>
      cases number with
      | int n =>
        simp only [Doc.ofJson, Doc.unsigned] at hread
        split at hread
        · rename_i hrange
          obtain rfl := Except.ok.inj hread
          have hsmall : n.toNat < UInt64.size := by
            simp only [UInt64.size]
            omega
          rw [UInt64.toNat_ofNat_of_lt' hsmall, Int.toNat_of_nonneg hrange.1, Json.int]
        · cases hread
      | double x => cases hread
    | _ => cases hread
  read_of_write := by
    intro found _
    have hrange : 0 ≤ (found.toNat : Int) ∧ (found.toNat : Int) < 2 ^ 64 := by
      have := found.toNat_lt
      omega
    simp only [Json.int, Doc.ofJson, Doc.unsigned, if_pos hrange, Int.toNat_natCast,
      UInt64.ofNat_toNat]

variable {α : Type} (codec : Codec α)

theorem read_eq_ok_iff {value : Json} (hvalue : value.Ordered) (found : α) :
    codec.read (.ofJson value) = .ok found ↔ codec.write found = value := by
  constructor
  · exact codec.write_of_read hvalue
  · rintro rfl
    exact codec.read_of_write hvalue

theorem optional_eq_ok_iff (hnull : ∀ found, (codec.write found).isNull = false) {value : Json}
    (hvalue : value.Ordered) (found : Option α) :
    (Doc.ofJson value).optional codec.read = .ok found ↔
      found.map codec.write = value.nonNull? := by
  constructor
  · exact codec.map_of_optional hvalue
  · intro h
    cases found with
    | none =>
      obtain rfl := value.nonNull?_eq_none_iff.mp h.symm
      exact codec.optional_null
    | some found =>
      obtain ⟨hsame, -⟩ := Option.filter_eq_some_iff.mp h.symm
      obtain rfl := Option.some.inj hsame
      exact codec.optional_of_write hvalue (hnull found)

end Codec

namespace Window

variable {β : Type}

/-- A record of two fields that are read in one way. -/
def pairShape (name first second : String) (read : Doc → Decode β) (required : List String)
    (blank : β) : RecordShape (β × β) where
  name := name
  fields := [
    (first, fun doc window => do return (← read doc, window.2)),
    (second, fun doc window => do return (window.1, ← read doc))]
  required := required
  blank := (blank, blank)

theorem pageShape_eq :
    pageShape = pairShape "Page" "page" "limit" Doc.unsigned ["page", "limit"] 0 := rfl

theorem offsetShape_eq :
    offsetShape = pairShape "Offset" "skip" "take" (·.optional Doc.signed) [] none := rfl

section Pair

variable {name first second : String} {read : Doc → Decode β} {required : List String} {blank : β}

theorem pairShape_stray {key : String} {doc : Doc} {window later : β × β}
    (h : (pairShape name first second read required blank).stray key doc window = .ok later) :
    later = window :=
  RecordShape.eq_of_pass h

theorem lookup_second (hne : first ≠ second) :
    (pairShape name first second read required blank).fields.lookup second =
      some fun doc window => do return (window.1, ← read doc) := by
  have hother : (second == first) = false := by simpa using hne.symm
  simp [pairShape, List.lookup_cons, hother]

def firstField :
    (pairShape name first second read required blank).Field first β where
  enter doc window := do return (← read doc, window.2)
  lookup_eq := by simp [pairShape]
  read := read
  get := Prod.fst
  read_of_enter := by
    intro doc window later h
    obtain ⟨found, hfound, rfl⟩ := exists_of_bind_pure h
    exact hfound
  get_of_other := by
    intro other hother hkey doc window later h
    rcases List.mem_pair.mp hother with rfl | rfl
    · exact absurd rfl hkey
    · obtain ⟨found, -, rfl⟩ := exists_of_bind_pure h
      rfl
  get_of_stray h := congrArg Prod.fst (pairShape_stray h)

def secondField (hne : first ≠ second) :
    (pairShape name first second read required blank).Field second β where
  enter doc window := do return (window.1, ← read doc)
  lookup_eq := lookup_second hne
  read := read
  get := Prod.snd
  read_of_enter := by
    intro doc window later h
    obtain ⟨found, hfound, rfl⟩ := exists_of_bind_pure h
    exact hfound
  get_of_other := by
    intro other hother hkey doc window later h
    rcases List.mem_pair.mp hother with rfl | rfl
    · obtain ⟨found, -, rfl⟩ := exists_of_bind_pure h
      rfl
    · exact absurd rfl hkey
  get_of_stray h := congrArg Prod.snd (pairShape_stray h)

/-- An entry can be entered if it does not stand under a key of the pair or can be read there. -/
theorem enters_pair (hne : first ≠ second) {entry : String × Json}
    (hread : entry.1 = first ∨ entry.1 = second → ∃ found, read (.ofJson entry.2) = .ok found) :
    (pairShape name first second read required blank).Enters entry := by
  obtain ⟨key, value⟩ := entry
  unfold RecordShape.Enters
  by_cases hfirst : key = first
  · subst hfirst
    obtain ⟨found, hfound⟩ := hread (.inl rfl)
    rw [firstField.lookup_eq]
    exact fun window => ⟨_, (bind_eq_ok _ _ _).mpr ⟨found, hfound, rfl⟩⟩
  by_cases hsecond : key = second
  · subst hsecond
    obtain ⟨found, hfound⟩ := hread (.inr rfl)
    rw [(secondField hne).lookup_eq]
    exact fun window => ⟨_, (bind_eq_ok _ _ _).mpr ⟨found, hfound, rfl⟩⟩
  · have hlookup : (pairShape name first second read required blank).fields.lookup key = none := by
      rw [List.lookup_eq_none_iff]
      intro field hfield
      rcases List.mem_pair.mp hfield with rfl | rfl
      · simpa using hfirst
      · simpa using hsecond
    rw [hlookup]
    refine fun window => ⟨window, (bind_eq_ok _ _ _).mpr ⟨(), ?_, rfl⟩⟩
    rw [Doc.skip_ofJson]
    rfl

theorem readAt_of_readEntries_pair (hne : first ≠ second) {docs : Entries Doc}
    (hkeys : (docs.map (·.1)).Nodup) {later : β × β} {known : List String}
    (hread : (pairShape name first second read required blank).readEntries (blank, blank) [] docs =
      .ok (later, known)) :
    Doc.readAt docs read first blank = .ok later.1 ∧
      Doc.readAt docs read second blank = .ok later.2 :=
  ⟨firstField.readAt_of_readEntries hkeys hread,
    (secondField hne).readAt_of_readEntries hkeys hread⟩

theorem required_known_iff (hne : first ≠ second)
    (hrequired : ∀ key ∈ required, key = first ∨ key = second) {fields : Fields}
    {later : β × β} {known : List String}
    (hread : (pairShape name first second read required blank).readEntries (blank, blank) []
      (Doc.ofEntries fields) = .ok (later, known)) :
    (∀ key ∈ required, key ∈ known) ↔ ∀ key ∈ required, (fields.get? key).isSome := by
  refine forall₂_congr fun key hkey => ?_
  have hlookup :
      ((pairShape name first second read required blank).fields.lookup key).isSome = true := by
    rcases hrequired key hkey with rfl | rfl
    · rw [firstField.lookup_eq]
      rfl
    · rw [lookup_second hne]
      rfl
  rw [RecordShape.mem_known_iff hread, Doc.keys_ofEntries, hlookup, Entries.isSome_get?_iff]
  simp

/-- A pair is read as what stands under its two keys. -/
theorem decodeEntries_pair_eq_ok_iff (hne : first ≠ second)
    (hrequired : ∀ key ∈ required, key = first ∨ key = second) {fields : Fields}
    (h : fields.Sorted) (window : β × β) :
    (pairShape name first second read required blank).decodeEntries (Doc.ofEntries fields) none =
        .ok window ↔
      (∀ key ∈ required, (fields.get? key).isSome) ∧
        Doc.readAt (Doc.ofEntries fields) read first blank = .ok window.1 ∧
        Doc.readAt (Doc.ofEntries fields) read second blank = .ok window.2 := by
  have hkeys := Doc.nodup_keys_ofEntries h
  rw [RecordShape.decodeEntries_eq_ok_iff]
  constructor
  · rintro ⟨known, hread, hknown⟩
    exact ⟨(required_known_iff hne hrequired hread).mp hknown,
      readAt_of_readEntries_pair hne hkeys hread⟩
  · rintro ⟨hpresent, hfirst, hsecond⟩
    have henters : ∀ entry ∈ fields,
        (pairShape name first second read required blank).Enters entry := by
      intro entry hentry
      refine enters_pair hne fun hkey => ?_
      have hget := h.get?_of_mem hentry
      rcases hkey with heq | heq
      · rw [Doc.readAt_ofEntries, ← heq, hget] at hfirst
        exact ⟨window.1, hfirst⟩
      · rw [Doc.readAt_ofEntries, ← heq, hget] at hsecond
        exact ⟨window.2, hsecond⟩
    have hunseen : ∀ entry ∈ fields, entry.1 ∉ ([] : List String) := by simp
    obtain ⟨⟨later, known⟩, hread⟩ :=
      RecordShape.exists_readEntries h.nodup_keys henters hunseen (blank, blank)
    obtain ⟨hlaterFirst, hlaterSecond⟩ := readAt_of_readEntries_pair hne hkeys hread
    have hsame : later = window := by
      refine Prod.ext ?_ ?_
      · exact Except.ok.inj (hlaterFirst.symm.trans hfirst)
      · exact Except.ok.inj (hlaterSecond.symm.trans hsecond)
    exact ⟨known, hsame ▸ hread, (required_known_iff hne hrequired hread).mpr hpresent⟩

end Pair

/-- Both numbers of a page stand among the entries. -/
def IsPage (fields : Fields) (number limit : UInt64) : Prop :=
  fields.get? "page" = some (.int number.toNat) ∧ fields.get? "limit" = some (.int limit.toNat)

/-- What the entries skip and take, null standing for nothing. -/
def IsOffset (fields : Fields) (skip take : Option Int64) : Prop :=
  fields.present? "skip" = skip.map (.int ·.toInt) ∧
    fields.present? "take" = take.map (.int ·.toInt)

theorem pageShape_eq_ok_iff {fields : Fields} (h : (Json.obj fields).Ordered)
    (number limit : UInt64) :
    pageShape.decodeEntries (Doc.ofEntries fields) none = .ok (number, limit) ↔
      IsPage fields number limit := by
  have hread (key : String) (found : UInt64) :
      (fields.get? key).isSome ∧ Doc.readAt (Doc.ofEntries fields) Doc.unsigned key 0 = .ok found ↔
        fields.get? key = some (.int found.toNat) := by
    cases hget : fields.get? key with
    | none => simp
    | some value =>
      simp only [Doc.readAt_ofEntries, hget, Option.isSome_some, true_and, Option.some.injEq]
      rw [eq_comm (a := value)]
      exact Codec.count.read_eq_ok_iff (h.of_get? hget) found
  rw [pageShape_eq, decodeEntries_pair_eq_ok_iff (by decide) (by simp) h.sorted, IsPage,
    ← hread, ← hread]
  simp only [List.forall_mem_cons, List.not_mem_nil, false_implies, implies_true, and_true]
  exact and_and_and_comm

theorem offsetShape_eq_ok_iff {fields : Fields} (h : (Json.obj fields).Ordered)
    (skip take : Option Int64) :
    offsetShape.decodeEntries (Doc.ofEntries fields) none = .ok (skip, take) ↔
      IsOffset fields skip take := by
  have hread (key : String) (found : Option Int64) :
      Doc.readAt (Doc.ofEntries fields) (·.optional Doc.signed) key none = .ok found ↔
        fields.present? key = found.map (.int ·.toInt) := by
    cases hget : fields.get? key with
    | none =>
      simp only [Doc.readAt_ofEntries, Fields.present?, hget]
      cases found <;> simp
    | some value =>
      simp only [Doc.readAt_ofEntries, Fields.present?, hget]
      rw [eq_comm (a := Option.filter _ _)]
      exact Codec.word.optional_eq_ok_iff (fun _ => rfl) (h.of_get? hget) found
  rw [offsetShape_eq, decodeEntries_pair_eq_ok_iff (by decide) (by simp) h.sorted, IsOffset,
    hread, hread]
  simp

/-- The window that an object is read as: the page it holds, or else the offset. -/
def ReadFrom (fields : Fields) : Window → Prop
  | page number limit => IsPage fields number limit
  | offset skip take => (∀ number limit, ¬ IsPage fields number limit) ∧ IsOffset fields skip take

theorem decode_obj {fields : Fields} (h : (Json.obj fields).Ordered) :
    (Json.obj fields).decode decode =
      match pageShape.decodeEntries (Doc.ofEntries fields) none,
        offsetShape.decodeEntries (Doc.ofEntries fields) none with
      | .ok (number, limit), _ => .ok (page number limit)
      | .error _, .ok (skip, take) => .ok (offset skip take)
      | .error _, .error _ => .error .noWindow := by
  have hvalue : (Doc.obj (Doc.ofEntries fields) none).value = .ok (.obj fields) := by
    have hread := Doc.toJson_ofJson h
    rw [Doc.ofJson] at hread
    rw [Doc.value, hread]
    rfl
  rw [Json.decode, Doc.ofJson, decode, hvalue]
  cases pageShape.decodeEntries (Doc.ofEntries fields) none with
  | ok read => rfl
  | error cause => cases offsetShape.decodeEntries (Doc.ofEntries fields) none <;> rfl

theorem decode_obj_eq_ok_iff {fields : Fields} (h : (Json.obj fields).Ordered) (window : Window) :
    (Json.obj fields).decode decode = .ok window ↔ window.ReadFrom fields := by
  have hpage := pageShape_eq_ok_iff h
  have hoffset := offsetShape_eq_ok_iff h
  rw [decode_obj h]
  cases hfirst : pageShape.decodeEntries (Doc.ofEntries fields) none with
  | ok read =>
    obtain ⟨number, limit⟩ := read
    rw [hfirst] at hpage
    have hfound := (hpage number limit).mp rfl
    cases window with
    | page n l => simpa [ReadFrom] using hpage n l
    | offset skip take =>
      have hnot : ¬ ∀ number limit, ¬ IsPage fields number limit :=
        fun hnone => hnone number limit hfound
      simp [ReadFrom, hnot]
  | error cause =>
    have hnone : ∀ number limit, ¬ IsPage fields number limit := by
      intro number limit hfound
      rw [(hpage number limit).mpr hfound] at hfirst
      cases hfirst
    cases hsecond : offsetShape.decodeEntries (Doc.ofEntries fields) none with
    | ok read =>
      rw [hsecond] at hoffset
      cases window with
      | page n l => simp [ReadFrom, hnone]
      | offset skip take => simpa [ReadFrom, hnone, Prod.ext_iff] using hoffset skip take
    | error cause =>
      rw [hsecond] at hoffset
      cases window with
      | page n l => simp [ReadFrom, hnone]
      | offset skip take => simp [ReadFrom, ← hoffset skip take]

/-- The numbers under the keys of a page are heeded if the object is read as their page or not at
all. -/
def Heeded (fields : Fields) : Prop :=
  ∀ window, (Json.obj fields).decode decode = .ok window →
    ∃ number limit, window = page number limit ∧ IsPage fields number limit

theorem heeded_iff {fields : Fields} (h : (Json.obj fields).Ordered) :
    Heeded fields ↔
      (∃ number limit, IsPage fields number limit) ∨ ¬ ∃ skip take, IsOffset fields skip take := by
  simp only [Heeded, decode_obj_eq_ok_iff h]
  constructor
  · intro hheeded
    by_contra hneither
    obtain ⟨hpage, hoffset⟩ := not_or.mp hneither
    obtain ⟨skip, take, hread⟩ := not_not.mp hoffset
    have hnone : ∀ number limit, ¬ IsPage fields number limit :=
      fun number limit hfound => hpage ⟨number, limit, hfound⟩
    obtain ⟨number, limit, hsame, -⟩ := hheeded (offset skip take) ⟨hnone, hread⟩
    cases hsame
  · rintro (⟨number, limit, hfound⟩ | hnone) window hread
    all_goals cases window with
    | page n l => exact ⟨n, l, rfl, hread⟩
    | offset skip take => ?_
    · exact absurd hfound (hread.1 number limit)
    · exact absurd ⟨skip, take, hread.2⟩ hnone

end Window

namespace Shorthand

/-- The field that holds the window. -/
def windowField : shape.Field "pagination" (Option Window) where
  enter doc options := do return { options with window := ← doc.optional Window.decode }
  lookup_eq := rfl
  read := (·.optional Window.decode)
  get := (·.window)
  read_of_enter := by
    intro doc options later h
    obtain ⟨found, hfound, rfl⟩ := exists_of_bind_pure h
    exact hfound
  get_of_other := by
    intro other hother hkey doc options later h
    simp only [shape, List.mem_cons, List.not_mem_nil, or_false] at hother
    rcases hother with rfl | rfl | rfl | rfl | rfl | rfl | rfl | rfl | rfl | rfl | rfl
    case inr.inr.inr.inr.inl => exact absurd rfl hkey
    all_goals
      obtain ⟨found, -, rfl⟩ := exists_of_bind_pure h
      rfl
  get_of_stray h := congrArg window (RecordShape.eq_of_pass h)

/-- Options that are read from an object with a window hold that window. -/
theorem exists_window_of_decode {request fields : Fields} (h : (Json.obj request).Ordered)
    (hget : request.get? "pagination" = some (.obj fields)) {options : Shorthand}
    (hdecode : (Json.obj request).decode decode = .ok options) :
    ∃ window, options.window = some window ∧ window.ReadFrom fields := by
  obtain ⟨known, hread, -⟩ := (RecordShape.decodeEntries_eq_ok_iff _ _).mp hdecode
  have hwindow := windowField.readAt_of_readEntries (Doc.nodup_keys_ofEntries h.sorted) hread
  rw [Doc.readAt_ofEntries, hget] at hwindow
  obtain ⟨window, hfound, hsame⟩ := (bind_eq_ok _ _ _).mp hwindow
  exact ⟨window, (Except.ok.inj hsame).symm,
    (Window.decode_obj_eq_ok_iff (h.of_get? hget) window).mp hfound⟩

end Shorthand

namespace Request

open Window

/-- A value that is told to be a shorthand decodes as the options. -/
theorem decode_of_sniff_shorthand {fields : Fields} {options : Shorthand}
    (h : sniff (.obj fields) = .ok (.shorthand options)) :
    (Json.obj fields).decode Shorthand.decode = .ok options := by
  rcases exists_of_sniff h with
    ⟨read, decoded, hvalue, hdecode, hsame⟩ | ⟨read, arguments, -, -, hother⟩ | hother
  · cases hvalue
    cases hsame
    exact hdecode
  · cases hother
  · cases hother

/-- The numbers under the keys of a page are heeded just if they are words, or if no offset can be
read beside them. A shorthand then takes as many rows as the page holds, and otherwise as many as
the offset says, which may be all of them. -/
theorem pages_heeded_iff {fields : Fields} (h : (Json.obj fields).Ordered) :
    (Heeded fields ↔
      (∃ number limit, IsPage fields number limit) ∨ ¬ ∃ skip take, IsOffset fields skip take) ∧
    ∀ (request : Fields) (options : Shorthand), (Json.obj request).Ordered →
      request.get? "pagination" = some (.obj fields) →
      sniff (.obj request) = .ok (.shorthand options) → ∀ marker : Option String,
        (∀ number limit, IsPage fields number limit →
          (options.compile marker).take = some (saturate limit)) ∧
        ((∀ number limit, ¬ IsPage fields number limit) → ∃ skip take, IsOffset fields skip take ∧
          (options.compile marker).take = take) := by
  refine ⟨heeded_iff h, fun request options hrequest hget hsniff marker => ?_⟩
  obtain ⟨window, hwindow, hread⟩ :=
    Shorthand.exists_window_of_decode hrequest hget (decode_of_sniff_shorthand hsniff)
  have htake : (options.compile marker).take = window.skipTake.2 := by
    simp only [Shorthand.compile, hwindow]
    rfl
  rw [htake]
  cases window with
  | page n l =>
    constructor
    · intro number limit hpage
      have hsame : l.toNat = limit.toNat := by simpa [hread.2, Json.int] using hpage.2
      rw [skipTake, UInt64.toNat_inj.mp hsame]
    · exact fun hnone => absurd hread (hnone n l)
  | offset skip take =>
    exact ⟨fun number limit hpage => absurd hpage (hread.1 number limit),
      fun _ => ⟨skip, take, hread.2, rfl⟩⟩

/-- The second page of ten rows each is heeded, and its shorthand takes ten rows. -/
theorem second_page_is_heeded :
    let fields : Fields := [("limit", .int 10), ("page", .int 2)]
    let options : Shorthand := { window := some (.page 2 10) }
    (Json.obj fields).Ordered ∧ Heeded fields ∧
      sniff (.obj [("pagination", .obj fields)]) = .ok (.shorthand options) ∧
      (options.compile (some defaultMarker)).take = some (saturate 10) := by
  intro fields options
  have hfields : (Json.obj fields).Ordered := by decide
  obtain ⟨hheeded, htaken⟩ := pages_heeded_iff hfields
  have hpage : IsPage fields 2 10 := ⟨rfl, rfl⟩
  have hrequest : (Json.obj [("pagination", .obj fields)]).Ordered := by decide
  have hsniff : sniff (.obj [("pagination", .obj fields)]) = .ok (.shorthand options) := rfl
  obtain ⟨htake, -⟩ := htaken _ options hrequest rfl hsniff (some defaultMarker)
  exact ⟨hfields, hheeded.mpr (.inl ⟨2, 10, hpage⟩), hsniff, htake 2 10 hpage⟩

/-- A page before the first one is not refused but dropped with its limit, so that the shorthand
takes all rows. -/
theorem negative_page_is_dropped :
    let fields : Fields := [("limit", .int 10), ("page", .int (-1))]
    let options : Shorthand := { window := some (.offset none none) }
    (Json.obj fields).Ordered ∧ ¬ Heeded fields ∧
      sniff (.obj [("pagination", .obj fields)]) = .ok (.shorthand options) ∧
      (options.compile (some defaultMarker)).take = none := by
  intro fields options
  have hdecode : (Json.obj fields).decode Window.decode = .ok (.offset none none) := rfl
  refine ⟨by decide, fun hheeded => ?_, rfl, rfl⟩
  obtain ⟨number, limit, hsame, -⟩ := hheeded _ hdecode
  cases hsame

end Request

end RecordQuery
