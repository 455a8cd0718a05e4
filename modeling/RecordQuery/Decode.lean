import RecordQuery.Json.Reader
import RecordQuery.Json.Printer
import RecordQuery.Text.Quoted
import RecordQuery.Text.Position

/-!
# Decoding documents

A decoder goes through a document in its own order and fails with the first cause it meets; entries
that are absent are reported after all that are present. A record is read from an object by the
names of its fields, where unknown names are passed over and a known name may stand only once, or
from a list by the order of its fields.
-/

namespace RecordQuery

/-- What a document is, as far as a wrong one is named in a message. -/
inductive Kind where
  | null
  | bool (value : Bool)
  | num (value : Number)
  | str (value : String)
  | sequence
  | map
  deriving DecidableEq, Repr, Inhabited

def Kind.phrase : Kind → String
  | null => "null"
  | bool value => "boolean `" ++ toString value ++ "`"
  | num (.int value) => "integer `" ++ toString value ++ "`"
  | num (.double value) => "floating point `" ++ String.ofList value.jsonChars ++ "`"
  | str value => "string " ++ Text.quoted value
  | sequence => "sequence"
  | map => "map"

/-- What a decoder asks for. -/
inductive Wanted where
  | map
  | sequence
  | text
  | flag
  | unsigned
  | signed
  | record (name : String)
  | sortList
  deriving DecidableEq, Repr, Inhabited

def Wanted.phrase : Wanted → String
  | map => "a map"
  | sequence => "a sequence"
  | text => "a string"
  | flag => "a boolean"
  | unsigned => "u64"
  | signed => "i64"
  | record name => "struct " ++ name
  | sortList => "a map of field to \"asc\"/\"desc\", or a list of such maps"

/-- Why a document cannot be decoded. -/
inductive DecodeError where
  | malformed (fault : Malformed)
  | wrongKind (found : Kind) (wanted : Wanted)
  | outOfRange (value : Int) (wanted : Wanted)
  | notDirection (text : String)
  | missing (field : String)
  | repeated (field : String)
  | tooFew (length : Nat) (record : String) (size : Nat)
  | tooMany (length : Nat)
  /-- Neither form of a window fits. -/
  | noWindow
  | notFieldEntry (value : Json)
  | notFieldSet (value : Json)
  | notCondition (value : Json)
  /-- A cause that a caller's own type gives, and where that type saw it. -/
  | told (reason : String) (position : Text.Position)
  deriving DecidableEq, Repr, Inhabited

namespace DecodeError

def message : DecodeError → String
  | malformed fault => fault.message
  | wrongKind found wanted => "invalid type: " ++ found.phrase ++ ", expected " ++ wanted.phrase
  | outOfRange value wanted =>
    "invalid value: integer `" ++ toString value ++ "`, expected " ++ wanted.phrase
  | notDirection text =>
    "invalid value: string " ++ Text.quoted text ++ ", expected \"asc\" or \"desc\""
  | missing field => "missing field `" ++ field ++ "`"
  | repeated field => "duplicate field `" ++ field ++ "`"
  | tooFew length record size =>
    "invalid length " ++ toString length ++ ", expected struct " ++ record ++ " with "
      ++ toString size ++ " elements"
  | tooMany length =>
    "invalid length " ++ toString length ++ ", expected fewer elements in array"
  | noWindow => "data did not match any variant of untagged enum Pagination"
  | notFieldEntry value => "expected a field name or relation map, found " ++ value.compact
  | notFieldSet value => "expected a field list or map, found " ++ value.compact
  | notCondition value => "expected a condition object, found " ++ value.compact
  | told reason position => reason ++ position.suffix

/-- A cause given by its message. -/
def ofMessage (message : String) : DecodeError :=
  let (reason, position) := Text.Position.split message
  told reason position

end DecodeError

abbrev Decode := Except DecodeError

/-- A fault of the text as a reason not to decode it. -/
def Decode.ofSource (result : Except Malformed α) : Decode α := result.mapError .malformed

namespace Doc

/-- The error of a decoder that cannot use this document at all. -/
def mismatch (wanted : Wanted) : Doc → DecodeError
  | .null => .wrongKind .null wanted
  | .bool value => .wrongKind (.bool value) wanted
  | .num value => .wrongKind (.num value) wanted
  | .str value => .wrongKind (.str value) wanted
  | .arr .. => .wrongKind .sequence wanted
  | .obj .. => .wrongKind .map wanted
  | .faulty fault => .malformed fault.reading

def value (doc : Doc) : Decode Json := Decode.ofSource doc.toJson

def text : Doc → Decode String
  | .str value => .ok value
  | doc => .error (doc.mismatch .text)

def flag : Doc → Decode Bool
  | .bool value => .ok value
  | doc => .error (doc.mismatch .flag)

def signed : Doc → Decode Int64
  | .num (.int value) =>
    if -2 ^ 63 ≤ value ∧ value < 2 ^ 63 then .ok (Int64.ofInt value)
    else .error (.outOfRange value .signed)
  | doc => .error (doc.mismatch .signed)

def unsigned : Doc → Decode UInt64
  | .num (.int value) =>
    if 0 ≤ value ∧ value < 2 ^ 64 then .ok (UInt64.ofNat value.toNat)
    else .error (.outOfRange value .unsigned)
  | doc => .error (doc.mismatch .unsigned)

def fields : Doc → Decode Fields
  | .obj entries stop => do
    let values ← Decode.ofSource (toEntries entries)
    Decode.ofSource (finish (Entries.ofList values) stop)
  | doc => .error (doc.mismatch .map)

def listOf (read : Doc → Decode α) : Doc → Decode (List α)
  | .arr items stop => do
    let values ← items.mapM read
    Decode.ofSource (finish values stop)
  | doc => .error (doc.mismatch .sequence)

/-- Null stands for an absent value. -/
def optional (read : Doc → Decode α) : Doc → Decode (Option α)
  | .null => .ok none
  | doc => do return some (← read doc)

end Doc

/-- How a record is read: how the document of each field enters it, in the order of the fields,
which of them have no default, and what is done with an unknown entry. -/
structure RecordShape (α : Type) where
  name : String
  fields : List (String × (Doc → α → Decode α))
  required : List String := []
  blank : α
  stray : String → Doc → α → Decode α := fun _ doc record => do
    Decode.ofSource doc.skip
    return record

namespace RecordShape

variable {α : Type} (shape : RecordShape α)

/-- Reads entries in the order they stand; `seen` are the fields read before. -/
def readEntries : α → (seen : List String) → List (String × Doc) → Decode (α × List String)
  | record, seen, [] => .ok (record, seen)
  | record, seen, (key, doc) :: rest =>
    match shape.fields.lookup key with
    | some enter =>
      if key ∈ seen then .error (.repeated key)
      else do readEntries (← enter doc record) (key :: seen) rest
    | none => do readEntries (← shape.stray key doc record) seen rest

def decodeEntries (entries : List (String × Doc)) (stop : Option Fault) : Decode α := do
  let (record, seen) ← shape.readEntries shape.blank [] entries
  Decode.ofSource (Doc.finish () stop)
  match shape.required.find? (· ∉ seen) with
  | some field => throw (.missing field)
  | none => return record

/-- Reads items for the fields that are still due, and says which fields found none. -/
def readItems (stop : Option Fault) :
    α → (due : List (String × (Doc → α → Decode α))) → List Doc → Decode (α × List String)
  | record, [], _ => .ok (record, [])
  | record, due, [] => Decode.ofSource (Doc.finish (record, due.map (·.1)) stop)
  | record, (_, enter) :: due, doc :: rest => do readItems stop (← enter doc record) due rest

/-- What remains to be said once all fields are read: whatever then follows an item is text that
should not follow. -/
def finishItems (record : α) : Option Fault → Except Malformed α
  | some ⟨.expectedListEnd, _⟩ => .error .trailingText
  | stop => Doc.finish record stop

def decodeItems (items : List Doc) (stop : Option Fault) : Decode α := do
  let (record, absent) ← readItems stop shape.blank shape.fields items
  match shape.required.find? (· ∈ absent) with
  | some field =>
    let position := (shape.fields.map (·.1)).idxOf field
    throw (.tooFew position shape.name shape.fields.length)
  | none =>
    if shape.fields.length < items.length then throw (.tooMany items.length)
    else Decode.ofSource (finishItems record stop)

def decode : Doc → Decode α
  | .obj entries stop => shape.decodeEntries entries stop
  | .arr items stop => shape.decodeItems items stop
  | doc => .error (doc.mismatch (.record shape.name))

end RecordShape

/-- Decodes a value. -/
def Json.decode (read : Doc → Decode α) (value : Json) : Decode α := read (.ofJson value)

/-- Decodes a text. Text is read up to the place where a decoder is content, so an item too many is
text that should not follow. -/
def decodeText (read : Doc → Decode α) (text : String) : Decode α :=
  let (doc, more) := Doc.ofText text
  match read doc with
  | .error (.tooMany _) => .error (.malformed .trailingText)
  | .error cause => .error cause
  | .ok value => if more then .error (.malformed .trailingText) else .ok value

end RecordQuery
