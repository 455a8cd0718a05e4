import RecordQuery.Proofs.Boundary
import RecordQuery.FieldSet

/-!
# Requests in a tree

A field set asks for relations under names, and of several under one name the last stands. The tree
has under each name what the standing relation becomes, so tree and field set can be gone through
together: each request of the field set is found in the tree at its place, and what is found in the
tree is a request or belongs to an argument that was handed on.
-/

namespace RecordQuery

namespace Json

/-- One step into a value. -/
inductive Step where
  | key (name : String)
  | item (position : Nat)

/-- What a path leads to. -/
def along? : List Step → Json → Option Json
  | [], value => some value
  | .key name :: rest, .obj entries => (Entries.get? entries name).bind (along? rest)
  | .item position :: rest, .arr items => items[position]?.bind (along? rest)
  | _ :: _, _ => none

theorem along?_obj (entries : Fields) (name : String) (rest : List Step) :
    (Json.obj entries).along? (.key name :: rest) = (entries.get? name).bind (along? rest) :=
  rfl

theorem along?_bool {flag : Bool} {path : List Step} {value : Json}
    (h : (Json.bool flag).along? path = some value) : path = [] ∧ value = .bool flag := by
  cases path with
  | nil => exact ⟨rfl, (Option.some.inj h).symm⟩
  | cons step rest => cases step <;> cases h

/-- A path from an object to something that is no object starts with a key. -/
theorem exists_key_of_along? {entries : Fields} {path : List Step} {value : Json}
    (h : (Json.obj entries).along? path = some value) (hvalue : value.isObj = false) :
    ∃ name rest held, path = .key name :: rest ∧ entries.get? name = some held ∧
      held.along? rest = some value := by
  match path with
  | [] =>
    obtain rfl := Option.some.inj h
    cases hvalue
  | .item _ :: _ => cases h
  | .key name :: rest =>
    obtain ⟨held, hheld, hrest⟩ := Option.bind_eq_some_iff.mp h
    exact ⟨name, rest, held, rfl, hheld, hrest⟩

end Json

/-- The names that an entry asks for, with their relations; a field is switched on. -/
def FieldEntry.asked : FieldEntry → List (String × Relation)
  | .field name => [(name, .flag true)]
  | .relations entries => entries

/-- The argument that a relation has under a key. -/
def RelationArguments.under? (arguments : RelationArguments) : String → Option Json
  | "where" => arguments.condition
  | "orderBy" => arguments.orderBy
  | "skip" => arguments.skip
  | "take" => arguments.take
  | _ => none

namespace FieldSet

def asked : FieldSet → List (String × Relation)
  | .list entries => entries.flatMap FieldEntry.asked
  | .map relations => relations

/-- The relation that stands under a name, the last one that was asked for. -/
def relation? (fields : FieldSet) (name : String) : Option Relation :=
  Entries.get? fields.asked.reverse name

theorem addRelations_eq (mode : Mode) (relations : List (String × Relation)) (tree : Fields) :
    addRelations mode relations tree =
      tree.insertAll (relations.map fun entry => (entry.1, relationTree mode entry.2)) := by
  induction relations generalizing tree with
  | nil => rw [addRelations]; rfl
  | cons entry rest ih =>
    obtain ⟨name, relation⟩ := entry
    rw [addRelations, ih]
    rfl

theorem addEntries_eq (mode : Mode) (entries : List FieldEntry) (tree : Fields) :
    addEntries mode entries tree = tree.insertAll
      ((entries.flatMap FieldEntry.asked).map fun entry => (entry.1, relationTree mode entry.2)) := by
  induction entries generalizing tree with
  | nil => rw [addEntries]; rfl
  | cons entry rest ih =>
    rw [List.flatMap_cons, List.map_append, Entries.insertAll_append]
    cases entry with
    | field name =>
      have hflag : relationTree mode (.flag true) = true := by rw [relationTree]
      rw [addEntries, ih, ← hflag]
      rfl
    | relations entries =>
      rw [addEntries, ih, addRelations_eq]
      rfl

/-- What is asked for is entered in turn. -/
theorem addTo_eq (mode : Mode) (fields : FieldSet) (tree : Fields) :
    fields.addTo mode tree =
      tree.insertAll (fields.asked.map fun entry => (entry.1, relationTree mode entry.2)) := by
  cases fields with
  | list entries => rw [addTo, addEntries_eq, asked]
  | map relations => rw [addTo, addRelations_eq, asked]

theorem get?_addTo (mode : Mode) (fields : FieldSet) (name : String) :
    Entries.get? (fields.addTo mode []) name = (fields.relation? name).map (relationTree mode) := by
  rw [addTo_eq, Entries.get?_insertAll_reverse, ← List.map_reverse, Entries.get?_map, relation?]
  exact Option.or_none

theorem tree?_of_isEmpty {fields : FieldSet} (h : fields.isEmpty = true) (mode : Mode) :
    tree? mode (some fields) = none := by
  simp [tree?, h]

theorem tree?_of_not_isEmpty {fields : FieldSet} (h : fields.isEmpty = false) (mode : Mode) :
    tree? mode (some fields) = some (fields.addTo mode []) := by
  simp [tree?, h]

theorem exists_of_tree? {mode : Mode} {fields : Option FieldSet} {tree : Fields}
    (h : tree? mode fields = some tree) :
    ∃ set, fields = some set ∧ set.isEmpty = false ∧ tree = set.addTo mode [] := by
  obtain ⟨set, hset, htree⟩ := Option.map_eq_some_iff.mp h
  obtain ⟨hfields, hempty⟩ := Option.filter_eq_some_iff.mp hset
  exact ⟨set, hfields, by simpa using hempty, htree.symm⟩

theorem isEmpty_of_relation? {fields : FieldSet} {name : String} {relation : Relation}
    (h : fields.relation? name = some relation) : fields.isEmpty = false := by
  cases fields with
  | list entries =>
    cases entries with
    | nil => cases h
    | cons entry rest => rfl
  | map relations =>
    cases relations with
    | nil => cases h
    | cons entry rest => rfl

/-- What stands under a name is in the tree. -/
theorem exists_tree_of_relation? {fields : FieldSet} {name : String} {relation : Relation}
    (h : fields.relation? name = some relation) (mode : Mode) :
    ∃ tree, tree? mode (some fields) = some tree ∧
      tree.get? name = some (relationTree mode relation) := by
  refine ⟨_, tree?_of_not_isEmpty (isEmpty_of_relation? h) mode, ?_⟩
  rw [get?_addTo, h]
  rfl

/-- The keys of a descriptor, each with what stands under it in the tree. -/
def slots (selected included : Option Fields) (arguments : RelationArguments) :
    List (String × Option Json) :=
  [("select", selected.map .obj), ("include", included.map .obj),
    ("where", arguments.condition), ("orderBy", arguments.orderBy), ("skip", arguments.skip),
    ("take", arguments.take)]

theorem keys_slots (selected included : Option Fields) (arguments : RelationArguments) :
    (slots selected included arguments).map (·.1) = descriptorKeys :=
  rfl

/-- The object of a descriptor whose sides have been built. -/
def descriptor (selected included : Option Fields) (arguments : RelationArguments) : Fields :=
  Entries.ofList (Arguments.present (slots selected included arguments))

theorem side_eq (mode : Mode) (fields : Option FieldSet) :
    side mode fields = Arguments.present [(mode.key, (tree? mode fields).map .obj)] := by
  cases fields with
  | none => rw [side]; rfl
  | some set =>
    rw [side]
    cases hempty : set.isEmpty with
    | true => rw [tree?_of_isEmpty hempty]; rfl
    | false => rw [tree?_of_not_isEmpty hempty]; rfl

theorem relationTree_described (mode : Mode) (selected included : Option FieldSet)
    (arguments : RelationArguments) :
    relationTree mode (.described selected included arguments) =
      .obj (descriptor (tree? .selection selected) (tree? .inclusion included) arguments) := by
  rw [relationTree, side_eq, side_eq]
  simp only [descriptor, Arguments.present, slots, RelationArguments.entries,
    ← List.filterMap_append]
  rfl

theorem relationTree_nested (mode : Mode) (fields : FieldSet) :
    relationTree mode (.nested fields) =
      .obj (Arguments.present [(mode.key, (tree? mode (some fields)).map .obj)]) := by
  rw [relationTree]
  cases hempty : fields.isEmpty with
  | true => rw [tree?_of_isEmpty hempty]; rfl
  | false => rw [tree?_of_not_isEmpty hempty]; rfl

theorem get?_present_singleton (name : String) (held : Option Json) (key : String) :
    Entries.get? (Arguments.present [(name, held)]) key = if key = name then held else none := by
  have hnodup : ([(name, held)].map (·.1)).Nodup := List.nodup_singleton name
  rw [Arguments.get?_present hnodup, Entries.get?]
  split
  · rfl
  · rfl

/-- A descriptor has its two sides and its arguments. -/
theorem get?_descriptor (selected included : Option Fields) (arguments : RelationArguments)
    (key : String) :
    (descriptor selected included arguments).get? key =
      if key = "select" then selected.map .obj
      else if key = "include" then included.map .obj
      else arguments.under? key := by
  have hnodup : ((slots selected included arguments).map (·.1)).Nodup := by
    rw [keys_slots]
    decide
  have hslots : (descriptor selected included arguments).get? key =
      (Entries.get? (slots selected included arguments) key).join := by
    rw [descriptor, Entries.ofList,
      Entries.get?_insertAll _ (Arguments.nodup_keys_present hnodup),
      Arguments.get?_present hnodup]
    exact Option.or_none
  rw [hslots]
  simp only [slots, Entries.get?]
  split_ifs <;> simp_all [RelationArguments.under?]

/-- What is requested of a tree. -/
inductive Requested where
  | flag (value : Bool)
  | argument (value : Json)

def Requested.value : Requested → Json
  | .flag value => .bool value
  | .argument value => value

/-- The requests that a field set makes in a mode, each at its place in the tree. Nested fields are
requested in the mode around them, the sides of a descriptor each in its own. -/
inductive Requests : Mode → FieldSet → List Json.Step → Requested → Prop where
  | flag {mode : Mode} {fields : FieldSet} {name : String} {value : Bool}
      (standing : fields.relation? name = some (.flag value)) :
      Requests mode fields [.key name] (.flag value)
  | nested {mode : Mode} {fields inner : FieldSet} {name : String} {path : List Json.Step}
      {requested : Requested} (standing : fields.relation? name = some (.nested inner))
      (within : Requests mode inner path requested) :
      Requests mode fields (.key name :: .key mode.key :: path) requested
  | selected {mode : Mode} {fields inner : FieldSet} {included : Option FieldSet}
      {arguments : RelationArguments} {name : String} {path : List Json.Step}
      {requested : Requested}
      (standing : fields.relation? name = some (.described (some inner) included arguments))
      (within : Requests .selection inner path requested) :
      Requests mode fields (.key name :: .key "select" :: path) requested
  | included {mode : Mode} {fields inner : FieldSet} {selected : Option FieldSet}
      {arguments : RelationArguments} {name : String} {path : List Json.Step}
      {requested : Requested}
      (standing : fields.relation? name = some (.described selected (some inner) arguments))
      (within : Requests .inclusion inner path requested) :
      Requests mode fields (.key name :: .key "include" :: path) requested
  | argument {mode : Mode} {fields : FieldSet} {selected included : Option FieldSet}
      {arguments : RelationArguments} {name key : String} {value : Json}
      (standing : fields.relation? name = some (.described selected included arguments))
      (under : arguments.under? key = some value) :
      Requests mode fields [.key name, .key key] (.argument value)

/-- An argument stands beside the sides. -/
theorem ne_sides_of_under? {arguments : RelationArguments} {key : String} {value : Json}
    (h : arguments.under? key = some value) : key ≠ "select" ∧ key ≠ "include" := by
  constructor <;> rintro rfl <;> simp [RelationArguments.under?] at h

/-- What an object under a standing name has under a key is two steps into the tree. -/
theorem exists_tree_below {mode : Mode} {fields : FieldSet} {name key : String}
    {relation : Relation} {body : Fields} {held : Json}
    (hname : fields.relation? name = some relation)
    (hbody : relationTree mode relation = .obj body) (hkey : body.get? key = some held) :
    ∃ tree, tree? mode (some fields) = some tree ∧
      ∀ path, (Json.obj tree).along? (.key name :: .key key :: path) = held.along? path := by
  obtain ⟨tree, htree, hget⟩ := exists_tree_of_relation? hname mode
  refine ⟨tree, htree, fun path => ?_⟩
  rw [Json.along?_obj, hget, hbody, Option.bind_some, Json.along?_obj, hkey, Option.bind_some]

/-- Each request is found at its place. -/
theorem Requests.found {mode : Mode} {fields : FieldSet} {path : List Json.Step}
    {requested : Requested} (h : Requests mode fields path requested) :
    ∃ tree, tree? mode (some fields) = some tree ∧
      (Json.obj tree).along? path = some requested.value := by
  induction h with
  | @flag mode fields name value standing =>
    obtain ⟨tree, htree, hname⟩ := exists_tree_of_relation? standing mode
    refine ⟨tree, htree, ?_⟩
    rw [Json.along?_obj, hname, relationTree]
    rfl
  | @nested mode fields inner name path requested standing _ ih =>
    obtain ⟨sub, hsub, hfound⟩ := ih
    have hkey : Entries.get? (Arguments.present [(mode.key, (tree? mode (some inner)).map .obj)])
        mode.key = some (.obj sub) := by
      rw [get?_present_singleton, if_pos rfl, hsub]
      rfl
    obtain ⟨tree, htree, hbelow⟩ :=
      exists_tree_below standing (relationTree_nested mode inner) hkey
    exact ⟨tree, htree, (hbelow path).trans hfound⟩
  | @selected mode fields inner included arguments name path requested standing _ ih =>
    obtain ⟨sub, hsub, hfound⟩ := ih
    have hkey : (descriptor (tree? .selection (some inner)) (tree? .inclusion included)
        arguments).get? "select" = some (.obj sub) := by
      rw [get?_descriptor, if_pos rfl, hsub]
      rfl
    obtain ⟨tree, htree, hbelow⟩ :=
      exists_tree_below standing (relationTree_described mode _ _ _) hkey
    exact ⟨tree, htree, (hbelow path).trans hfound⟩
  | @included mode fields inner selected arguments name path requested standing _ ih =>
    obtain ⟨sub, hsub, hfound⟩ := ih
    have hkey : (descriptor (tree? .selection selected) (tree? .inclusion (some inner))
        arguments).get? "include" = some (.obj sub) := by
      rw [get?_descriptor, hsub]
      rfl
    obtain ⟨tree, htree, hbelow⟩ :=
      exists_tree_below standing (relationTree_described mode _ _ _) hkey
    exact ⟨tree, htree, (hbelow path).trans hfound⟩
  | @argument mode fields selected included arguments name key value standing under =>
    obtain ⟨hselect, hinclude⟩ := ne_sides_of_under? under
    have hkey : (descriptor (tree? .selection selected) (tree? .inclusion included)
        arguments).get? key = some value := by
      rw [get?_descriptor, if_neg hselect, if_neg hinclude, under]
    obtain ⟨tree, htree, hbelow⟩ :=
      exists_tree_below standing (relationTree_described mode _ _ _) hkey
    exact ⟨tree, htree, hbelow []⟩

/-- What a path leads to is a flag that is requested there, or belongs to a requested argument. -/
def Covered (mode : Mode) (fields : FieldSet) (path : List Json.Step) (value : Json) : Prop :=
  (∃ flag, value = .bool flag ∧ Requests mode fields path (.flag flag)) ∨
    ∃ front back argument, path = front ++ back ∧
      Requests mode fields front (.argument argument) ∧ argument.along? back = some value

theorem Covered.below {mode inner : Mode} {fields set : FieldSet} {path : List Json.Step}
    {value : Json} (name key : String)
    (hbelow : ∀ {path requested}, Requests inner set path requested →
      Requests mode fields (.key name :: .key key :: path) requested)
    (h : Covered inner set path value) :
    Covered mode fields (.key name :: .key key :: path) value := by
  rcases h with ⟨flag, hvalue, hflag⟩ | ⟨front, back, argument, rfl, hargument, hback⟩
  · exact .inl ⟨flag, hvalue, hbelow hflag⟩
  · exact .inr ⟨.key name :: .key key :: front, back, argument, rfl, hbelow hargument, hback⟩

/-- Whatever is no object in the tree is covered by a request. -/
theorem covered {mode : Mode} {fields : FieldSet} {tree : Fields} {path : List Json.Step}
    {value : Json} (htree : tree? mode (some fields) = some tree)
    (hpath : (Json.obj tree).along? path = some value) (hvalue : value.isObj = false) :
    Covered mode fields path value := by
  obtain ⟨set, hset, -, rfl⟩ := exists_of_tree? htree
  obtain rfl := Option.some.inj hset
  obtain ⟨name, below, held, rfl, hname, hbelow⟩ := Json.exists_key_of_along? hpath hvalue
  rw [get?_addTo] at hname
  obtain ⟨relation, hrelation, rfl⟩ := Option.map_eq_some_iff.mp hname
  -- A flag ends the path; below an object two steps are done, and the rest of the path is shorter.
  cases relation with
  | flag flag =>
    rw [relationTree] at hbelow
    obtain ⟨rfl, rfl⟩ := Json.along?_bool hbelow
    exact .inl ⟨flag, rfl, .flag hrelation⟩
  | nested inner =>
    rw [relationTree_nested] at hbelow
    obtain ⟨key, rest, side, rfl, hkey, hrest⟩ := Json.exists_key_of_along? hbelow hvalue
    rw [get?_present_singleton] at hkey
    split_ifs at hkey with hmode
    subst hmode
    obtain ⟨sub, hsub, rfl⟩ := Option.map_eq_some_iff.mp hkey
    exact (covered hsub hrest hvalue).below name _ (.nested hrelation)
  | described selected included arguments =>
    rw [relationTree_described] at hbelow
    obtain ⟨key, rest, side, rfl, hkey, hrest⟩ := Json.exists_key_of_along? hbelow hvalue
    rw [get?_descriptor] at hkey
    split_ifs at hkey with hselect hinclude
    · subst hselect
      obtain ⟨sub, hsub, rfl⟩ := Option.map_eq_some_iff.mp hkey
      obtain ⟨inner, rfl, -, -⟩ := exists_of_tree? hsub
      exact (covered hsub hrest hvalue).below name _ (.selected hrelation)
    · subst hinclude
      obtain ⟨sub, hsub, rfl⟩ := Option.map_eq_some_iff.mp hkey
      obtain ⟨inner, rfl, -, -⟩ := exists_of_tree? hsub
      exact (covered hsub hrest hvalue).below name _ (.included hrelation)
    · exact .inr ⟨[.key name, .key key], rest, side, rfl, .argument hrelation hkey, hrest⟩
termination_by path.length

/-- The tree of a field set holds each request at its place, and what it holds is a requested flag
or belongs to a requested argument. -/
theorem tree_holds_requests (mode : Mode) {fields : FieldSet} (h : fields.isEmpty = false) :
    ∃ tree, tree? mode (some fields) = some tree ∧
      (∀ path requested, Requests mode fields path requested →
        (Json.obj tree).along? path = some requested.value) ∧
      ∀ path value, (Json.obj tree).along? path = some value → value.isObj = false →
        Covered mode fields path value := by
  have htree : tree? mode (some fields) = some (fields.addTo mode []) :=
    tree?_of_not_isEmpty h mode
  refine ⟨_, htree, ?_, fun path value => covered htree⟩
  intro path requested hrequests
  obtain ⟨tree, hbuilt, hfound⟩ := hrequests.found
  rw [htree] at hbuilt
  obtain rfl := Option.some.inj hbuilt
  exact hfound

/-- Of posts that are asked for twice, the second time with their comments, those stand. -/
theorem tree_holds_requests_of_later_entry :
    let comments : FieldSet := .list [.relations [("comments", .nested (ofNames ["body"]))]]
    let posts : Relation := .described none (some comments) { take := some (Json.int 3) }
    let fields : FieldSet := .list [.field "posts", .relations [("posts", posts)]]
    fields.isEmpty = false ∧ ∃ tree, tree? .selection (some fields) = some tree ∧
      (Json.obj tree).along? [.key "posts", .key "include", .key "comments", .key "include",
        .key "body"] = some (.bool true) ∧
      (Json.obj tree).along? [.key "posts", .key "take"] = some (Json.int 3) := by
  intro comments posts fields
  have hfields : fields.isEmpty = false := rfl
  obtain ⟨tree, htree, hfound, -⟩ := tree_holds_requests .selection hfields
  refine ⟨hfields, tree, htree, hfound _ (.flag true) ?_, hfound _ (.argument (Json.int 3)) ?_⟩
  · exact .included rfl (.nested rfl (.flag rfl))
  · exact .argument rfl rfl

end FieldSet

end RecordQuery
