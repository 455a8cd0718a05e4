import RecordQuery.Decode

/-!
# Field sets

A field set asks for fields of a record: a list of names and relations, or a map of relations. A
relation is switched on or off, narrowed to fields of its own, or described by two field sets and
arguments that are handed on untouched. From a field set the tree of nested requests is built:
nested fields stand under the key of the mode they are asked in, and a descriptor names both modes.
-/

namespace RecordQuery

inductive Mode where
  | selection
  | inclusion
  deriving DecidableEq, Repr, Inhabited

def Mode.key : Mode → String
  | selection => "select"
  | inclusion => "include"

/-- The arguments of a described relation that are handed on untouched. -/
structure RelationArguments where
  condition : Option Json := none
  orderBy : Option Json := none
  skip : Option Json := none
  take : Option Json := none
  deriving Repr, Inhabited

namespace RelationArguments

/-- The arguments that are there, under their keys. -/
def entries (arguments : RelationArguments) : List (String × Json) :=
  [("where", arguments.condition), ("orderBy", arguments.orderBy), ("skip", arguments.skip),
    ("take", arguments.take)].filterMap fun (key, value) => value.map (key, ·)

/-- The arguments found in a descriptor; null stands for an absent one. -/
def ofFields (fields : Fields) : RelationArguments where
  condition := fields.present? "where"
  orderBy := fields.present? "orderBy"
  skip := fields.present? "skip"
  take := fields.present? "take"

end RelationArguments

mutual

inductive FieldSet where
  | list (entries : List FieldEntry)
  | map (relations : List (String × Relation))

inductive FieldEntry where
  | field (name : String)
  | relations (entries : List (String × Relation))

inductive Relation where
  | flag (value : Bool)
  | nested (fields : FieldSet)
  | described (selected included : Option FieldSet) (arguments : RelationArguments)

end

instance : Inhabited FieldSet := ⟨.list []⟩

instance : Inhabited Relation := ⟨.flag false⟩

namespace FieldSet

def isEmpty : FieldSet → Bool
  | .list entries => entries.isEmpty
  | .map relations => relations.isEmpty

def ofNames (names : List String) : FieldSet := .list (names.map .field)

/-- The keys that make an object a descriptor instead of a map of nested relations. -/
def descriptorKeys : List String := ["select", "include", "where", "orderBy", "skip", "take"]

def isDescriptor (fields : Fields) : Bool := descriptorKeys.any (fields.contains ·)

mutual

/-- Reads a field set; a single name is a list of one field. -/
def ofJson : Json → Decode FieldSet
  | .str name => .ok (ofNames [name])
  | .arr items => do return .list (← readEntries items)
  | .obj entries => do return .map (← readRelations entries)
  | value => .error (.notFieldSet value)

def readEntries : List Json → Decode (List FieldEntry)
  | [] => .ok []
  | .str name :: rest => do return .field name :: (← readEntries rest)
  | .obj entries :: rest => do
    let relations ← readRelations entries
    return .relations relations :: (← readEntries rest)
  | value :: _ => .error (.notFieldEntry value)

/-- A relation with null is left out. -/
def readRelations : List (String × Json) → Decode (List (String × Relation))
  | [] => .ok []
  | (name, value) :: rest =>
    if value.isNull then readRelations rest
    else do
      let relation ← readRelation value
      return (name, relation) :: (← readRelations rest)

def readRelation : Json → Decode Relation
  | .bool value => .ok (.flag value)
  | .str name => .ok (.nested (ofNames [name]))
  | .arr items => do return .nested (.list (← readEntries items))
  | .obj entries =>
    if isDescriptor entries then do
      let selected ← readAt "select" entries
      let included ← readAt "include" entries
      return .described selected included (.ofFields entries)
    else do return .nested (.map (← readRelations entries))
  | value => .error (.notFieldSet value)

/-- The field set that a descriptor has at a key; null stands for an absent one. -/
def readAt (key : String) : List (String × Json) → Decode (Option FieldSet)
  | [] => .ok none
  | (k, value) :: rest =>
    if key = k then
      if value.isNull then .ok none else do return some (← ofJson value)
    else readAt key rest

end

/-- Reads one entry of a list. -/
def readEntry (value : Json) : Decode FieldEntry := do
  match ← readEntries [value] with
  | entry :: _ => return entry
  | [] => throw (.notFieldEntry value)

/-- Reads a field set in source form, which is read as a value first. -/
def decode (doc : Doc) : Decode FieldSet := do ofJson (← doc.value)

mutual

/-- The entries that a field set gives to a tree; a later one for a name replaces earlier ones. -/
def addTo (mode : Mode) : FieldSet → Fields → Fields
  | .list entries, tree => addEntries mode entries tree
  | .map relations, tree => addRelations mode relations tree

def addEntries (mode : Mode) : List FieldEntry → Fields → Fields
  | [], tree => tree
  | .field name :: rest, tree => addEntries mode rest (tree.insert name true)
  | .relations entries :: rest, tree => addEntries mode rest (addRelations mode entries tree)

def addRelations (mode : Mode) : List (String × Relation) → Fields → Fields
  | [], tree => tree
  | (name, relation) :: rest, tree =>
    addRelations mode rest (tree.insert name (relationTree mode relation))

/-- What a relation becomes in the tree. -/
def relationTree (mode : Mode) : Relation → Json
  | .flag value => .bool value
  | .nested fields =>
    if fields.isEmpty then .obj [] else .obj [(mode.key, .obj (addTo mode fields []))]
  | .described selected included arguments =>
    .obj (Entries.ofList
      (side .selection selected ++ side .inclusion included ++ arguments.entries))

/-- One side of a descriptor; nothing when no field is asked for. -/
def side (mode : Mode) : Option FieldSet → List (String × Json)
  | none => []
  | some fields => if fields.isEmpty then [] else [(mode.key, .obj (addTo mode fields []))]

end

/-- The tree of a field set that asks for something. -/
def tree? (mode : Mode) (fields : Option FieldSet) : Option Fields :=
  (fields.filter (!·.isEmpty)).map fun set => set.addTo mode []

end FieldSet

end RecordQuery
