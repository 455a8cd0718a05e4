import RecordQuery.Json.Token

/-!
# Reading documents from text

Tokens are taken one by one while the containers still open wait on a stack. Where the next token
does not fit, the value due there is the fault, and the open containers are closed around it. What
cannot be read, a container too deep or an object after a key that is no text, is still followed to
its end, since it may stand where a value is only passed over.
-/

namespace RecordQuery

/-- An object that is being read: its entries, backwards, up to the first key that is no text. -/
structure OpenObject where
  entries : List (String × Doc) := []
  badKey : Option Malformed := none
  deriving Repr, Inhabited

namespace OpenObject

def push (object : OpenObject) (key : String) (doc : Doc) : OpenObject :=
  if object.badKey.isNone then { object with entries := (key, doc) :: object.entries } else object

/-- A key that is no text ends what can be read, though not what can be passed over. -/
def spoil (object : OpenObject) (cause : Malformed) : OpenObject :=
  { object with badKey := object.badKey <|> some cause }

/-- The object when nothing follows; `passing` is what keeps one from passing over the rest. -/
def close (object : OpenObject) (passing : Option Malformed) : Doc :=
  .obj object.entries.reverse (object.badKey.map (⟨·, passing⟩))

/-- The object when it stops at a fault between its entries. -/
def stop (object : OpenObject) (fault : Fault) : Doc :=
  .obj object.entries.reverse (some ⟨object.badKey.getD fault.reading, fault.passing⟩)

end OpenObject

/-- A container that waits for a value inside it; the items of a list so far stand backwards. -/
inductive Outer where
  | list (items : List Doc)
  | object (object : OpenObject) (key : String)
  deriving Repr, Inhabited

/-- The place of the next token. -/
inductive Place where
  | value
  | listStart
  | listNext (items : List Doc)
  | listRest (items : List Doc)
  | objectStart
  | objectNext (object : OpenObject)
  | objectRest (object : OpenObject)
  | colon (object : OpenObject) (key : String)
  deriving Repr, Inhabited

inductive Reading where
  | due (place : Place) (outer : List Outer)
  | done (doc : Doc)
  deriving Repr, Inhabited

namespace Reading

/-- The deepest nesting that is read. -/
def depthLimit : Nat := 127

/-- A container inside others: beyond the deepest nesting it can only be passed over, unless
`passing` keeps one from that too. -/
def within (outer : List Outer) (passing : Option Malformed) (doc : Doc) : Doc :=
  if (outer.drop (depthLimit - 1)).isEmpty then doc else .faulty ⟨.tooDeep, passing⟩

/-- Closes the waiting containers around the last document, which a fault has ended. -/
def wrap (fault : Fault) : List Outer → Doc → Doc
  | [], doc => doc
  | .list items :: outer, doc =>
    wrap fault outer (within outer fault.passing (.arr (doc :: items).reverse none))
  | .object object key :: outer, doc =>
    wrap fault outer (within outer fault.passing ((object.push key doc).close fault.passing))

/-- The document when a fault stands in the place of a value. -/
def stopValue (outer : List Outer) (fault : Fault) : Doc := wrap fault outer (.faulty fault)

/-- The document when a list stops at a fault between its items. -/
def stopList (outer : List Outer) (items : List Doc) (fault : Fault) : Doc :=
  wrap fault outer (within outer fault.passing (.arr items.reverse (some fault)))

/-- The document when an object stops at a fault between its entries. -/
def stopObject (outer : List Outer) (object : OpenObject) (fault : Fault) : Doc :=
  wrap fault outer (within outer fault.passing (object.stop fault))

/-- A complete value is given to the container that waits for it. -/
def put (doc : Doc) : List Outer → Reading
  | [] => .done doc
  | .list items :: outer => .due (.listRest (doc :: items)) outer
  | .object object key :: outer => .due (.objectRest (object.push key doc)) outer

def putList (items : List Doc) (outer : List Outer) : Reading :=
  put (within outer none (.arr items.reverse none)) outer

def putObject (object : OpenObject) (outer : List Outer) : Reading :=
  put (within outer none (object.close none)) outer

/-- A token in the place of a value. -/
def value (outer : List Outer) : Token → Reading
  | .openList => .due .listStart outer
  | .openObject => .due .objectStart outer
  | .leaf (.faulty fault) =>
    if fault.passing.isNone then put (.faulty fault) outer else .done (stopValue outer fault)
  | .leaf doc => put doc outer
  | _ => .done (stopValue outer (.both .expectedValue))

/-- A token in the place of a key. -/
def key (outer : List Outer) (object : OpenObject) : Token → Reading
  | .leaf (.str key) => .due (.colon object key) outer
  | .leaf (.faulty fault) =>
    if !fault.reading.inString then .done (stopObject outer object (.both .keyNotString))
    else if fault.passing.isNone then .due (.colon (object.spoil fault.reading) "") outer
    else .done (stopObject outer object fault)
  | _ => .done (stopObject outer object (.both .keyNotString))

def step : Reading → Token → Reading
  | .done doc, _ => .done doc
  | .due .value outer, token => value outer token
  | .due .listStart outer, .closeList => putList [] outer
  | .due .listStart outer, token => value (.list [] :: outer) token
  | .due (.listNext items) outer, .closeList =>
    .done (stopList outer items ⟨.trailingComma, some .expectedValue⟩)
  | .due (.listNext items) outer, token => value (.list items :: outer) token
  | .due (.listRest items) outer, .comma => .due (.listNext items) outer
  | .due (.listRest items) outer, .closeList => putList items outer
  | .due (.listRest items) outer, _ => .done (stopList outer items (.both .expectedListEnd))
  | .due .objectStart outer, .closeObject => putObject {} outer
  | .due .objectStart outer, token => key outer {} token
  | .due (.objectNext object) outer, .closeObject =>
    .done (stopObject outer object ⟨.trailingComma, some .keyNotString⟩)
  | .due (.objectNext object) outer, token => key outer object token
  | .due (.objectRest object) outer, .comma => .due (.objectNext object) outer
  | .due (.objectRest object) outer, .closeObject => putObject object outer
  | .due (.objectRest object) outer, _ =>
    .done (stopObject outer object (.both .expectedObjectEnd))
  | .due (.colon object key) outer, .colon => .due .value (.object object key :: outer)
  | .due (.colon object key) outer, _ =>
    .done (stopValue (.object object key :: outer) (.both .expectedColon))

/-- The document when the text ends here. -/
def atEnd : Reading → Doc
  | .done doc => doc
  | .due .value outer => stopValue outer (.both .endInValue)
  | .due .listStart outer => stopList outer [] (.both .endInList)
  | .due (.listNext items) outer => stopValue (.list items :: outer) (.both .endInValue)
  | .due (.listRest items) outer => stopList outer items (.both .endInList)
  | .due .objectStart outer => stopObject outer {} (.both .endInObject)
  | .due (.objectNext object) outer =>
    stopObject outer object ⟨.endInValue, some .endInObject⟩
  | .due (.objectRest object) outer => stopObject outer object (.both .endInObject)
  | .due (.colon object key) outer =>
    stopValue (.object object key :: outer) (.both .endInObject)

/-- The document at the head of the tokens, and whether tokens follow it. -/
def run : Reading → List Token → Doc × Bool
  | .done doc, rest => (doc, !rest.isEmpty)
  | reading, [] => (reading.atEnd, false)
  | reading, token :: rest => run (reading.step token) rest

end Reading

/-- The document that a text holds, and whether anything follows it. -/
def Doc.ofText (text : String) : Doc × Bool :=
  Reading.run (.due .value []) (Token.scan text.toList)

/-- The value that a text holds. -/
def Json.ofText (text : String) : Except Malformed Json := do
  let (doc, more) := Doc.ofText text
  let value ← doc.toJson
  if more then throw .trailingText
  return value

end RecordQuery
