import RecordQuery.Proofs.Numerals

/-!
# The text of a value

The compact text of a value tells the value. The first character tells the kind. An escape tells the
character that it stands for, so that a string ends at the first quote that is none. A number ends
where no character of a number follows, and nothing that can follow a value is one.
-/

namespace RecordQuery.Json

/-- Kinds of values that begin differently. -/
inductive Kind where
  | null
  | true
  | false
  | num
  | str
  | arr
  | obj
  deriving DecidableEq

def kind : Json → Kind
  | .null => .null
  | .bool Bool.true => .true
  | .bool Bool.false => .false
  | .num _ => .num
  | .str _ => .str
  | .arr _ => .arr
  | .obj _ => .obj

/-- The kind of the value that a character begins. -/
def Kind.ofChar? (c : Char) : Option Kind :=
  if c = 'n' then some null
  else if c = 't' then some true
  else if c = 'f' then some false
  else if c = '"' then some str
  else if c = '[' then some arr
  else if c = '\x7b' then some obj
  else if Numeral.isPart c then some num
  else none

theorem Kind.ofChar?_of_isPart {c : Char} (h : Numeral.isPart c = Bool.true) :
    ofChar? c = some num := by
  have hother : ∀ other : Char, Numeral.isPart other = Bool.false → c ≠ other := by
    rintro other hother rfl
    rw [h] at hother
    exact Bool.noConfusion hother
  rw [ofChar?, if_neg (hother _ (by decide)), if_neg (hother _ (by decide)),
    if_neg (hother _ (by decide)), if_neg (hother _ (by decide)), if_neg (hother _ (by decide)),
    if_neg (hother _ (by decide)), if_pos h]

theorem exists_head_chars (value : Json) :
    ∃ first, value.chars.head? = some first ∧ Kind.ofChar? first = some value.kind := by
  cases value with
  | null => exact ⟨'n', by simp [chars], rfl⟩
  | bool value => cases value <;> exact ⟨_, by simp [chars]; rfl, rfl⟩
  | num value =>
    obtain ⟨first, rest, hchars⟩ := List.exists_cons_of_ne_nil value.chars_ne_nil
    refine ⟨first, by simp [chars, hchars], Kind.ofChar?_of_isPart ?_⟩
    exact value.isPart_chars (by rw [hchars]; exact List.mem_cons_self)
  | str value => exact ⟨'"', by simp [chars, stringChars], rfl⟩
  | arr items => cases items <;> exact ⟨'[', by simp [chars], rfl⟩
  | obj entries =>
    cases entries with
    | nil => exact ⟨'\x7b', by simp [chars], rfl⟩
    | cons entry rest => exact ⟨'\x7b', by simp [chars], rfl⟩

theorem kind_eq_of_chars {value other : Json} {rest more : List Char}
    (h : value.chars ++ rest = other.chars ++ more) : value.kind = other.kind := by
  obtain ⟨first, hfirst, hkind⟩ := value.exists_head_chars
  obtain ⟨second, hsecond, hkindOther⟩ := other.exists_head_chars
  have hhead := congrArg List.head? h
  rw [List.head?_append, List.head?_append, hfirst, hsecond, Option.some_or,
    Option.some_or] at hhead
  obtain rfl := Option.some.inj hhead
  exact Option.some.inj (hkind.symm.trans hkindOther)

def hexValue (c : Char) : Nat := if c.isDigit then c.toNat - 48 else c.toNat - 87

theorem hexValue_hexDigit : ∀ n < 16, hexValue (hexDigit n) = n := by
  decide

/-- The first character of the inside of a string, and what follows it. A quote ends the inside. -/
def unescape : List Char → Option (Char × List Char)
  | '\\' :: '"' :: rest => some ('"', rest)
  | '\\' :: '\\' :: rest => some ('\\', rest)
  | '\\' :: 'n' :: rest => some ('\n', rest)
  | '\\' :: 'r' :: rest => some ('\r', rest)
  | '\\' :: 't' :: rest => some ('\t', rest)
  | '\\' :: 'b' :: rest => some ('\x08', rest)
  | '\\' :: 'f' :: rest => some ('\x0c', rest)
  | '\\' :: 'u' :: '0' :: '0' :: high :: low :: rest =>
    some (Char.ofNat (16 * hexValue high + hexValue low), rest)
  | '"' :: _ => none
  | c :: rest => some (c, rest)
  | [] => none

theorem unescape_escapeChar (c : Char) (rest : List Char) :
    unescape (escapeChar c ++ rest) = some (c, rest) := by
  unfold escapeChar
  split_ifs with hquote hbackslash hn hr ht hb hf hcontrol
  · rw [hquote]
    rfl
  · rw [hbackslash]
    rfl
  · rw [hn]
    rfl
  · rw [hr]
    rfl
  · rw [ht]
    rfl
  · rw [hb]
    rfl
  · rw [hf]
    rfl
  · have hhigh := hexValue_hexDigit (c.toNat / 16) (by omega)
    have hlow := hexValue_hexDigit (c.toNat % 16) (by omega)
    have hc : Char.ofNat (16 * (c.toNat / 16) + c.toNat % 16) = c := by
      rw [Nat.div_add_mod]
      exact Char.ofNat_toNat c
    simp only [List.cons_append, List.nil_append, unescape, hhigh, hlow, hc]
  · rw [List.singleton_append, unescape.eq_def]
    split <;> simp_all

/-- Equal insides of strings, each ended by a quote, hold the same characters. -/
theorem flatMap_escapeChar_append_inj : ∀ (text other : List Char) {rest more : List Char},
    text.flatMap escapeChar ++ '"' :: rest = other.flatMap escapeChar ++ '"' :: more →
    text = other ∧ rest = more
  | [], [], _, _, h => ⟨rfl, (List.cons.inj h).2⟩
  | c :: text, [], rest, more, h => by
    have hread := congrArg unescape h
    rw [List.flatMap_cons, List.append_assoc, unescape_escapeChar] at hread
    cases hread
  | [], c :: other, rest, more, h => by
    have hread := congrArg unescape h
    rw [List.flatMap_cons, List.append_assoc, unescape_escapeChar] at hread
    cases hread
  | c :: text, d :: other, rest, more, h => by
    have hread := congrArg unescape h
    rw [List.flatMap_cons, List.flatMap_cons, List.append_assoc, List.append_assoc,
      unescape_escapeChar, unescape_escapeChar] at hread
    obtain ⟨rfl, htail⟩ := Prod.mk.inj (Option.some.inj hread)
    obtain ⟨rfl, hrest⟩ := flatMap_escapeChar_append_inj text other htail
    exact ⟨rfl, hrest⟩

theorem stringChars_append_inj {text other : String} {rest more : List Char}
    (h : stringChars text ++ rest = stringChars other ++ more) : text = other ∧ rest = more := by
  simp only [stringChars, List.cons_append, List.append_assoc, List.cons.injEq, true_and,
    List.nil_append] at h
  obtain ⟨htext, hrest⟩ := flatMap_escapeChar_append_inj _ _ h
  exact ⟨String.toList_inj.mp htext, hrest⟩

/-- A text that may follow a value goes on with no part of a number. -/
def Stops (rest : List Char) : Prop := ∀ c ∈ rest.head?, Numeral.isPart c = Bool.false

theorem stops_nil : Stops [] := by
  simp [Stops]

theorem stops_itemsChars (items : List Json) (rest : List Char) :
    Stops (itemsChars items ++ rest) := by
  cases items <;> simp [Stops, itemsChars, Numeral.isPart]

theorem stops_entriesChars (entries : List (String × Json)) (rest : List Char) :
    Stops (entriesChars entries ++ rest) := by
  obtain _ | ⟨⟨key, value⟩, more⟩ := entries <;> simp [Stops, entriesChars, Numeral.isPart]

/-- The text of a number is the longest one at the front that is made of parts of a number. -/
theorem numberChars_append_inj {number other : Number} {rest more : List Char}
    (hrest : Stops rest) (hmore : Stops more)
    (h : number.chars ++ rest = other.chars ++ more) : number = other ∧ rest = more := by
  have hfront : ∀ (n : Number) {tail : List Char}, Stops tail →
      (n.chars ++ tail).takeWhile Numeral.isPart = n.chars := by
    intro n tail htail
    rw [List.takeWhile_append_of_pos fun c hc => n.isPart_chars hc]
    cases tail with
    | nil => simp
    | cons c tail =>
      have hc : Numeral.isPart c = Bool.false := htail c rfl
      simp [hc]
  have hchars : number.chars = other.chars := by
    rw [← hfront number hrest, h, hfront other hmore]
  rw [hchars] at h
  exact ⟨Number.chars_injective hchars, List.append_cancel_left h⟩

/-- No value begins with a closing bracket. -/
theorem chars_append_ne {c : Char} (h : Kind.ofChar? c = none) (value : Json)
    (rest more : List Char) : value.chars ++ rest ≠ c :: more := by
  intro heq
  obtain ⟨first, hfirst, hkind⟩ := value.exists_head_chars
  have hhead := congrArg List.head? heq
  rw [List.head?_append, hfirst, Option.some_or, List.head?_cons] at hhead
  obtain rfl := Option.some.inj hhead
  rw [h] at hkind
  cases hkind

/-- A list is written like the rest of a longer one, but for the first character. -/
theorem itemsChars_of_chars_arr {items others : List Json} {rest more : List Char}
    (h : chars (.arr items) ++ rest = chars (.arr others) ++ more) :
    itemsChars items ++ rest = itemsChars others ++ more := by
  cases items with
  | nil =>
    cases others with
    | nil => simpa [chars, itemsChars] using h
    | cons other others =>
      simp only [chars, List.cons_append, List.append_assoc, List.cons.injEq, true_and] at h
      exact (chars_append_ne (by decide) other _ _ h.symm).elim
  | cons item items =>
    cases others with
    | nil =>
      simp only [chars, List.cons_append, List.append_assoc, List.cons.injEq, true_and] at h
      exact (chars_append_ne (by decide) item _ _ h).elim
    | cons other others => simpa [chars, itemsChars] using h

theorem entriesChars_of_chars_obj {entries others : List (String × Json)} {rest more : List Char}
    (h : chars (.obj entries) ++ rest = chars (.obj others) ++ more) :
    entriesChars entries ++ rest = entriesChars others ++ more := by
  obtain _ | ⟨⟨key, value⟩, entries⟩ := entries
  · obtain _ | ⟨⟨second, other⟩, others⟩ := others
    · simpa [chars, entriesChars] using h
    · simp [chars, stringChars] at h
  · obtain _ | ⟨⟨second, other⟩, others⟩ := others
    · simp [chars, stringChars] at h
    · simpa [chars, entriesChars] using h

mutual

theorem chars_append_inj : ∀ (value other : Json) {rest more : List Char},
    Stops rest → Stops more → value.chars ++ rest = other.chars ++ more →
    value = other ∧ rest = more
  | .null, other, _, _, _, _, h => by
    have hkind := kind_eq_of_chars h
    cases other with
    | null => exact ⟨rfl, List.append_cancel_left h⟩
    | bool value => cases value <;> cases hkind
    | _ => cases hkind
  | .bool Bool.true, other, _, _, _, _, h => by
    have hkind := kind_eq_of_chars h
    cases other with
    | bool value =>
      cases value with
      | true => exact ⟨rfl, List.append_cancel_left h⟩
      | false => cases hkind
    | _ => cases hkind
  | .bool Bool.false, other, _, _, _, _, h => by
    have hkind := kind_eq_of_chars h
    cases other with
    | bool value =>
      cases value with
      | true => cases hkind
      | false => exact ⟨rfl, List.append_cancel_left h⟩
    | _ => cases hkind
  | .num value, other, _, _, hrest, hmore, h => by
    have hkind := kind_eq_of_chars h
    cases other with
    | num second =>
      simp only [chars] at h
      obtain ⟨rfl, htail⟩ := numberChars_append_inj hrest hmore h
      exact ⟨rfl, htail⟩
    | bool value => cases value <;> cases hkind
    | _ => cases hkind
  | .str value, other, _, _, _, _, h => by
    have hkind := kind_eq_of_chars h
    cases other with
    | str second =>
      simp only [chars] at h
      obtain ⟨rfl, htail⟩ := stringChars_append_inj h
      exact ⟨rfl, htail⟩
    | bool value => cases value <;> cases hkind
    | _ => cases hkind
  | .arr items, other, _, _, _, _, h => by
    have hkind := kind_eq_of_chars h
    cases other with
    | arr others =>
      obtain ⟨rfl, htail⟩ := itemsChars_append_inj items others (itemsChars_of_chars_arr h)
      exact ⟨rfl, htail⟩
    | bool value => cases value <;> cases hkind
    | _ => cases hkind
  | .obj entries, other, _, _, _, _, h => by
    have hkind := kind_eq_of_chars h
    cases other with
    | obj others =>
      obtain ⟨rfl, htail⟩ := entriesChars_append_inj entries others (entriesChars_of_chars_obj h)
      exact ⟨rfl, htail⟩
    | bool value => cases value <;> cases hkind
    | _ => cases hkind

theorem itemsChars_append_inj : ∀ (items others : List Json) {rest more : List Char},
    itemsChars items ++ rest = itemsChars others ++ more → items = others ∧ rest = more
  | [], [], _, _, h => by
    simpa [itemsChars] using h
  | [], _ :: _, _, _, h | _ :: _, [], _, _, h => by
    simp [itemsChars] at h
  | item :: items, other :: others, rest, more, h => by
    simp only [itemsChars, List.cons_append, List.append_assoc, List.cons.injEq, true_and] at h
    obtain ⟨rfl, htail⟩ :=
      chars_append_inj item other (stops_itemsChars _ _) (stops_itemsChars _ _) h
    obtain ⟨rfl, hrest⟩ := itemsChars_append_inj items others htail
    exact ⟨rfl, hrest⟩

theorem entriesChars_append_inj : ∀ (entries others : List (String × Json))
    {rest more : List Char}, entriesChars entries ++ rest = entriesChars others ++ more →
    entries = others ∧ rest = more
  | [], [], _, _, h => by
    simpa [entriesChars] using h
  | [], (_, _) :: _, _, _, h | (_, _) :: _, [], _, _, h => by
    simp [entriesChars] at h
  | (key, value) :: entries, (second, other) :: others, rest, more, h => by
    simp only [entriesChars, List.cons_append, List.append_assoc, List.cons.injEq, true_and] at h
    obtain ⟨rfl, hvalue⟩ := stringChars_append_inj h
    obtain ⟨rfl, htail⟩ := chars_append_inj value other (stops_entriesChars _ _)
      (stops_entriesChars _ _) (List.cons.inj hvalue).2
    obtain ⟨rfl, hrest⟩ := entriesChars_append_inj entries others htail
    exact ⟨rfl, hrest⟩

end

/-- The text of a value tells the value. -/
theorem compact_injective {value other : Json} (h : value.compact = other.compact) :
    value = other := by
  have hchars : value.chars ++ [] = other.chars ++ [] := by
    rw [List.append_nil, List.append_nil]
    exact String.ofList_injective h
  exact (chars_append_inj value other stops_nil stops_nil hchars).1

end RecordQuery.Json
