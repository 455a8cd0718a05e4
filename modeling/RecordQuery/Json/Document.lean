import RecordQuery.Json

/-!
# Documents as they are read

A document keeps what a value no longer shows: the order of an object's entries, repeated keys, and
the places at which the text is not JSON. A reader that goes through a document from left to right
therefore meets a wrong entry and a fault of the text in the order in which they stand. A value that
is not wanted is only passed over: that asks less of it, and tells some faults in another way.
-/

namespace RecordQuery

/-- Why a text is not JSON. -/
inductive Malformed where
  | endInValue | endInList | endInObject | endInString
  | expectedValue | expectedWord | expectedColon | expectedListEnd | expectedObjectEnd
  | keyNotString | trailingComma | trailingText | tooDeep
  | badNumber | numberTooLarge
  | badEscape | controlCharacter | loneSurrogate | brokenPair
  deriving DecidableEq, Repr, Inhabited

namespace Malformed

def message : Malformed → String
  | endInValue => "EOF while parsing a value"
  | endInList => "EOF while parsing a list"
  | endInObject => "EOF while parsing an object"
  | endInString => "EOF while parsing a string"
  | expectedValue => "expected value"
  | expectedWord => "expected ident"
  | expectedColon => "expected `:`"
  | expectedListEnd => "expected `,` or `]`"
  | expectedObjectEnd => "expected `,` or `\x7d`"
  | keyNotString => "key must be a string"
  | trailingComma => "trailing comma"
  | trailingText => "trailing characters"
  | tooDeep => "recursion limit exceeded"
  | badNumber => "invalid number"
  | numberTooLarge => "number out of range"
  | badEscape => "invalid escape"
  | controlCharacter => "control character (\\u0000-\\u001F) found while parsing a string"
  | loneSurrogate => "lone leading surrogate in hex escape"
  | brokenPair => "unexpected end of hex escape"

/-- Whether the fault lies within a string. -/
def inString : Malformed → Bool
  | endInString | badEscape | controlCharacter | loneSurrogate | brokenPair => true
  | _ => false

end Malformed

/-- A place at which a value cannot be read. -/
structure Fault where
  /-- Why the value there cannot be read. -/
  reading : Malformed
  /-- Why it cannot even be passed over, if it cannot. -/
  passing : Option Malformed
  deriving DecidableEq, Repr, Inhabited

namespace Fault

/-- A fault that ends the text for every reader alike. -/
def both (cause : Malformed) : Fault := ⟨cause, some cause⟩

/-- A fault with the end of its value in sight, so that the value can be passed over. -/
def past (cause : Malformed) : Fault := ⟨cause, none⟩

end Fault

/-- A value in source form. A list or an object of which no more can be read ends with the fault. -/
inductive Doc where
  | null
  | bool (value : Bool)
  | num (value : Number)
  | str (value : String)
  | arr (items : List Doc) (stop : Option Fault)
  | obj (entries : List (String × Doc)) (stop : Option Fault)
  | faulty (fault : Fault)
  deriving Repr, Inhabited

namespace Doc

mutual

def ofJson : Json → Doc
  | .null => .null
  | .bool value => .bool value
  | .num value => .num value
  | .str value => .str value
  | .arr items => .arr (ofItems items) none
  | .obj entries => .obj (ofEntries entries) none

def ofItems : List Json → List Doc
  | [] => []
  | item :: rest => ofJson item :: ofItems rest

def ofEntries : List (String × Json) → List (String × Doc)
  | [] => []
  | (key, value) :: rest => (key, ofJson value) :: ofEntries rest

end

/-- What remains to be said after the last item or entry has been read. -/
def finish (value : α) : Option Fault → Except Malformed α
  | none => .ok value
  | some fault => .error fault.reading

mutual

/-- The value of a document; of entries with one key the last stays. -/
def toJson : Doc → Except Malformed Json
  | .null => .ok .null
  | .bool value => .ok (.bool value)
  | .num value => .ok (.num value)
  | .str value => .ok (.str value)
  | .arr items stop => do
    let values ← toItems items
    finish (.arr values) stop
  | .obj entries stop => do
    let values ← toEntries entries
    finish (.obj (Entries.ofList values)) stop
  | .faulty fault => .error fault.reading

def toItems : List Doc → Except Malformed (List Json)
  | [] => .ok []
  | item :: rest => do return (← toJson item) :: (← toItems rest)

def toEntries : List (String × Doc) → Except Malformed (List (String × Json))
  | [] => .ok []
  | (key, value) :: rest => do
    let read ← toJson value
    return (key, read) :: (← toEntries rest)

end

/-- Passes over a place at which a value cannot be read. -/
def pass (fault : Fault) : Except Malformed Unit :=
  match fault.passing with
  | none => .ok ()
  | some cause => .error cause

mutual

/-- Passes over a value that is not wanted. -/
def skip : Doc → Except Malformed Unit
  | .arr items stop => do
    skipItems items
    stop.forM pass
  | .obj entries stop => do
    skipEntries entries
    stop.forM pass
  | .faulty fault => pass fault
  | _ => .ok ()

def skipItems : List Doc → Except Malformed Unit
  | [] => .ok ()
  | item :: rest => do
    skip item
    skipItems rest

def skipEntries : List (String × Doc) → Except Malformed Unit
  | [] => .ok ()
  | (_, value) :: rest => do
    skip value
    skipEntries rest

end

end Doc

end RecordQuery
