import RecordQuery.Decode
import RecordQuery.Proofs.Scanned

/-!
# Reading printed text

The compact text of a value is read as a document of the same shape: every text, word and bracket as
it was, a number as its digits tell, and a container beyond the deepest nesting as a fault that can
be passed over. Nothing is left behind the document.
-/

namespace RecordQuery

open Scan

namespace Number

/-- What the text of a number is read as. -/
def reread (number : Number) : Doc :=
  match Token.scan number.chars with
  | [.leaf doc] => doc
  | _ => .num number

theorem exists_reread_eq (number : Number) :
    ∃ literal : Literal, number.reread = literal.leaf ∧ ∀ {rest}, Closes rest →
      tokens .between (number.chars ++ rest) = .leaf literal.leaf :: tokens .between rest := by
  obtain ⟨literal, hliteral⟩ := number.exists_tokens
  have hscan : Token.scan number.chars = [.leaf literal.leaf] := by
    rw [Token.scan, ← List.append_nil number.chars, hliteral closes_nil]
    rfl
  exact ⟨literal, by rw [reread, hscan], hliteral⟩

theorem tokens_chars (number : Number) {rest : List Char} (hrest : Closes rest) :
    tokens .between (number.chars ++ rest) = .leaf number.reread :: tokens .between rest := by
  obtain ⟨literal, hreread, htokens⟩ := number.exists_reread_eq
  rw [hreread, htokens hrest]

/-- A number is given to the container that waits for it, even if it is out of range. -/
theorem value_reread (number : Number) (outer : List Outer) :
    Reading.value outer (.leaf number.reread) = Reading.put number.reread outer := by
  obtain ⟨literal, hreread, -⟩ := number.exists_reread_eq
  rw [hreread, Literal.leaf]
  split <;> rfl

end Number

namespace Doc

/-- A container inside so many others. -/
def within (depth : Nat) (doc : Doc) : Doc :=
  if depth < Reading.depthLimit then doc else .faulty (.past .tooDeep)

mutual

/-- What the text of a value is read as inside so many containers. -/
def reread (depth : Nat) : Json → Doc
  | .null => .null
  | .bool value => .bool value
  | .num value => value.reread
  | .str value => .str value
  | .arr items => within depth (.arr (rereadItems (depth + 1) items) none)
  | .obj entries => within depth (.obj (rereadEntries (depth + 1) entries) none)

def rereadItems (depth : Nat) : List Json → List Doc
  | [] => []
  | item :: rest => reread depth item :: rereadItems depth rest

def rereadEntries (depth : Nat) : List (String × Json) → List (String × Doc)
  | [] => []
  | (key, value) :: rest => (key, reread depth value) :: rereadEntries depth rest

end

theorem rereadEntries_eq_map (depth : Nat) (entries : List (String × Json)) :
    rereadEntries depth entries = entries.map fun entry => (entry.1, reread depth entry.2) := by
  induction entries with
  | nil => rfl
  | cons entry rest ih => rw [rereadEntries, ih, List.map_cons]

end Doc

namespace Reading

open Doc

theorem within_eq (outer : List Outer) (doc : Doc) :
    within outer none doc = Doc.within outer.length doc := by
  have hdepth : (outer.drop (depthLimit - 1)).isEmpty = decide (outer.length < depthLimit) := by
    rw [Bool.eq_iff_iff, List.isEmpty_iff, List.drop_eq_nil_iff, decide_eq_true_iff, depthLimit]
    omega
  rw [within, Doc.within, hdepth]
  simp [Fault.past]

theorem run_due (place : Place) (outer : List Outer) (token : Token) (rest : List Token) :
    run (.due place outer) (token :: rest) = run (step (.due place outer) token) rest := rfl

/-- No value begins with a closing bracket, so an item of a list is read as a value. -/
theorem run_item (value : Json) {place : Place} {items : List Doc}
    (hplace : place = .listStart ∧ items = [] ∨ place = .listNext items) (outer : List Outer)
    {rest : List Char} (hrest : Closes rest) :
    run (.due place outer) (tokens .between (value.chars ++ rest)) =
      run (.due .value (.list items :: outer)) (tokens .between (value.chars ++ rest)) := by
  have hfirst : ∃ token more, tokens .between (value.chars ++ rest) = token :: more ∧
      token ≠ .closeList := by
    cases value with
    | null => exact ⟨_, _, tokens_null rest, by simp⟩
    | bool value => exact ⟨_, _, tokens_bool value rest, by simp⟩
    | num value =>
      rw [Json.chars]
      exact ⟨_, _, value.tokens_chars hrest, by simp⟩
    | str value =>
      rw [Json.chars]
      exact ⟨_, _, tokens_stringChars value rest, by simp⟩
    | arr items => cases items <;> exact ⟨.openList, _, by rw [Json.chars]; rfl, by simp⟩
    | obj entries => cases entries <;> exact ⟨.openObject, _, by rw [Json.chars]; rfl, by simp⟩
  obtain ⟨token, more, htokens, hclose⟩ := hfirst
  have hstep : step (.due place outer) token = step (.due .value (.list items :: outer)) token := by
    rcases hplace with ⟨rfl, rfl⟩ | rfl <;> cases token <;> first | exact absurd rfl hclose | rfl
  rw [htokens, run_due, run_due, hstep]

/-- The key of an entry and its colon, with the tokens of its value behind them. -/
theorem tokens_entry (key : String) (text : List Char) :
    tokens .between (Json.stringChars key ++ ':' :: text) =
      .leaf (.str key) :: .colon :: tokens .between text := by
  rw [tokens_stringChars]
  rfl

mutual

/-- The text of a value is read as its document, which goes to the container that waits for it. -/
theorem run_chars : ∀ (value : Json) (outer : List Outer) {rest : List Char}, Closes rest →
    run (.due .value outer) (tokens .between (value.chars ++ rest)) =
      run (put (reread outer.length value) outer) (tokens .between rest)
  | .null, outer, rest, _ => by
    rw [tokens_null, run_due, reread]
    rfl
  | .bool value, outer, rest, _ => by
    rw [tokens_bool, run_due, reread]
    rfl
  | .num value, outer, rest, hrest => by
    rw [Json.chars, value.tokens_chars hrest, run_due, reread, ← value.value_reread]
    rfl
  | .str value, outer, rest, _ => by
    rw [Json.chars, tokens_stringChars, run_due, reread]
    rfl
  | .arr [], outer, rest, _ => by
    have hclosed := congrArg (fun doc => run (put doc outer) (tokens .between rest))
      (within_eq outer (.arr [] none))
    rw [reread, rereadItems, Json.chars]
    exact hclosed
  | .arr (item :: items), outer, rest, _ => by
    have hclosed := closes_itemsChars items rest
    have hopened : tokens .between ((Json.arr (item :: items)).chars ++ rest) =
        .openList :: tokens .between (item.chars ++ (Json.itemsChars items ++ rest)) := by
      rw [Json.chars, List.cons_append, List.cons_append, List.append_assoc]
      rfl
    rw [hopened, run_due]
    calc run (.due .listStart outer)
          (tokens .between (item.chars ++ (Json.itemsChars items ++ rest)))
        = run (put (reread (outer.length + 1) item) (.list [] :: outer))
            (tokens .between (Json.itemsChars items ++ rest)) := by
          rw [run_item item (.inl ⟨rfl, rfl⟩) outer hclosed, run_chars item _ hclosed,
            List.length_cons]
      _ = run (put (reread outer.length (.arr (item :: items))) outer) (tokens .between rest) := by
          rw [reread, rereadItems]
          exact run_itemsChars items [reread (outer.length + 1) item] outer rest
  | .obj [], outer, rest, _ => by
    have hclosed := congrArg (fun doc => run (put doc outer) (tokens .between rest))
      (within_eq outer (.obj [] none))
    rw [reread, rereadEntries, Json.chars]
    exact hclosed
  | .obj ((key, value) :: entries), outer, rest, _ => by
    have hclosed := closes_entriesChars entries rest
    have hopened : tokens .between ((Json.obj ((key, value) :: entries)).chars ++ rest) =
        .openObject :: .leaf (.str key) :: .colon ::
          tokens .between (value.chars ++ (Json.entriesChars entries ++ rest)) := by
      rw [← tokens_entry, Json.chars, List.cons_append, List.append_assoc]
      simp only [List.cons_append, List.append_assoc]
      rfl
    rw [hopened]
    calc run (.due .value outer) (.openObject :: .leaf (.str key) :: .colon ::
          tokens .between (value.chars ++ (Json.entriesChars entries ++ rest)))
        = run (.due .value (.object {} key :: outer))
            (tokens .between (value.chars ++ (Json.entriesChars entries ++ rest))) := rfl
      _ = run (put (reread (outer.length + 1) value) (.object {} key :: outer))
            (tokens .between (Json.entriesChars entries ++ rest)) := by
          rw [run_chars value _ hclosed, List.length_cons]
      _ = run (put (reread outer.length (.obj ((key, value) :: entries))) outer)
            (tokens .between rest) := by
          rw [reread, rereadEntries]
          exact run_entriesChars entries [(key, reread (outer.length + 1) value)] outer rest

theorem run_itemsChars : ∀ (items : List Json) (first : List Doc) (outer : List Outer)
    (rest : List Char),
    run (.due (.listRest first) outer) (tokens .between (Json.itemsChars items ++ rest)) =
      run (put (Doc.within outer.length
        (.arr (first.reverse ++ rereadItems (outer.length + 1) items) none)) outer)
        (tokens .between rest)
  | [], first, outer, rest => by
    rw [rereadItems, List.append_nil, ← within_eq, Json.itemsChars]
    rfl
  | item :: items, first, outer, rest => by
    have hclosed := closes_itemsChars items rest
    have hcomma : tokens .between (Json.itemsChars (item :: items) ++ rest) =
        .comma :: tokens .between (item.chars ++ (Json.itemsChars items ++ rest)) := by
      rw [Json.itemsChars, List.cons_append, List.cons_append, List.append_assoc]
      rfl
    rw [hcomma, run_due]
    calc run (.due (.listNext first) outer)
          (tokens .between (item.chars ++ (Json.itemsChars items ++ rest)))
        = run (put (reread (outer.length + 1) item) (.list first :: outer))
            (tokens .between (Json.itemsChars items ++ rest)) := by
          rw [run_item item (.inr rfl) outer hclosed, run_chars item _ hclosed, List.length_cons]
      _ = run (put (Doc.within outer.length
            (.arr (first.reverse ++ rereadItems (outer.length + 1) (item :: items)) none)) outer)
            (tokens .between rest) := by
          rw [rereadItems, List.append_cons, ← List.reverse_cons]
          exact run_itemsChars items (reread (outer.length + 1) item :: first) outer rest

theorem run_entriesChars : ∀ (entries : List (String × Json)) (first : List (String × Doc))
    (outer : List Outer) (rest : List Char),
    run (.due (.objectRest ⟨first, none⟩) outer)
        (tokens .between (Json.entriesChars entries ++ rest)) =
      run (put (Doc.within outer.length
        (.obj (first.reverse ++ rereadEntries (outer.length + 1) entries) none)) outer)
        (tokens .between rest)
  | [], first, outer, rest => by
    rw [rereadEntries, List.append_nil, ← within_eq, Json.entriesChars]
    rfl
  | (key, value) :: entries, first, outer, rest => by
    have hclosed := closes_entriesChars entries rest
    have hcomma : tokens .between (Json.entriesChars ((key, value) :: entries) ++ rest) =
        .comma :: .leaf (.str key) :: .colon ::
          tokens .between (value.chars ++ (Json.entriesChars entries ++ rest)) := by
      rw [← tokens_entry, Json.entriesChars]
      simp only [List.cons_append, List.append_assoc]
      rfl
    rw [hcomma]
    calc run (.due (.objectRest ⟨first, none⟩) outer) (.comma :: .leaf (.str key) :: .colon ::
          tokens .between (value.chars ++ (Json.entriesChars entries ++ rest)))
        = run (.due .value (.object ⟨first, none⟩ key :: outer))
            (tokens .between (value.chars ++ (Json.entriesChars entries ++ rest))) := rfl
      _ = run (put (reread (outer.length + 1) value) (.object ⟨first, none⟩ key :: outer))
            (tokens .between (Json.entriesChars entries ++ rest)) := by
          rw [run_chars value _ hclosed, List.length_cons]
      _ = run (put (Doc.within outer.length
            (.obj (first.reverse ++ rereadEntries (outer.length + 1) ((key, value) :: entries))
              none)) outer)
            (tokens .between rest) := by
          rw [rereadEntries, List.append_cons, ← List.reverse_cons]
          exact run_entriesChars entries ((key, reread (outer.length + 1) value) :: first) outer
            rest

end

end Reading

/-- The compact text of a value holds one document and nothing behind it. -/
theorem Doc.ofText_compact (value : Json) : ofText value.compact = (reread 0 value, false) := by
  have hread := Reading.run_chars value [] closes_nil
  rw [List.append_nil] at hread
  rw [ofText, Json.compact, String.toList_ofList, Token.scan, hread]
  rfl

/-- A text that was printed is decoded as the document that it is read as. -/
theorem decodeText_compact_eq_ok_iff {α : Type} (read : Doc → Decode α) (value : Json)
    (result : α) :
    decodeText read value.compact = .ok result ↔ read (Doc.reread 0 value) = .ok result := by
  rw [decodeText, Doc.ofText_compact]
  cases hread : read (Doc.reread 0 value) with
  | ok decoded => simp [hread]
  | error cause => cases cause <;> simp [hread]

end RecordQuery
