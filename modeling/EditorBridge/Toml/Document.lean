import EditorBridge.Toml.Source

/-!
# TOML documents

The table that the statements of a TOML text build. While it is being built, each table knows where
it came from, because that decides what may still be added to it: a table that only appeared in
front of another one may get a header later, one with a header may not get a second one, and one
that came from a dotted name may be extended by dotted names only. A value that is written in one
place is closed.
-/

namespace EditorBridge.Toml

/-- Where a table came from: a header of its own, the header of a table inside it, or a dotted name.
-/
inductive Origin where
  | header
  | implied
  | dotted
  deriving DecidableEq, Repr

/-- A document that is being built: a value that is written in one place, a table, or a list of
tables, the last one first. -/
inductive Node where
  | closed (value : Setting)
  | table (origin : Origin) (members : List (String × Node))
  | tables (items : List (List (String × Node)))

/-- The members of a table that is being built. -/
abbrev Members := List (String × Node)

namespace Members

/-- The members with the node of one name changed; a name that is not there is added at the end.
There is no answer if the change is refused. -/
def update? (name : String) (change : Option Node → Option Node) : Members → Option Members
  | [] => (change none).map fun node => [(name, node)]
  | (key, node) :: rest =>
      if key = name then (change (some node)).map fun node => (key, node) :: rest
      else (update? name change rest).map fun rest => (key, node) :: rest

/-- The members with the table that a path of headers leads to changed. -/
def within? (change : Members → Option Members) : List String → Members → Option Members
  | [], members => change members
  | name :: path, members =>
      update? name (fun
        | none => (within? change path []).map (.table .implied)
        | some (.table origin inner) => (within? change path inner).map (.table origin)
        | some (.tables (last :: before)) =>
            (within? change path last).map fun last => .tables (last :: before)
        | some _ => none) members

/-- The members with a table that gets its header now. -/
def openTable? (name : String) (members : Members) : Option Members :=
  update? name (fun
    | none => some (.table .header [])
    | some (.table .implied inner) => some (.table .header inner)
    | some _ => none) members

/-- The members with one more table in a list of tables. -/
def openItem? (name : String) (members : Members) : Option Members :=
  update? name (fun
    | none => some (.tables [[]])
    | some (.tables items) => some (.tables ([] :: items))
    | some _ => none) members

/-- The members with a value under a dotted name. -/
def enter? (value : Setting) : List String → Members → Option Members
  | [], _ => none
  | [name], members =>
      update? name (fun
        | none => some (.closed value)
        | some _ => none) members
  | name :: next :: path, members =>
      update? name (fun
        | none => (enter? value (next :: path) []).map (.table .dotted)
        | some (.table .dotted inner) => (enter? value (next :: path) inner).map (.table .dotted)
        | some (.table .implied inner) =>
            if path.isEmpty then none
            else (enter? value (next :: path) inner).map (.table .implied)
        | some _ => none) members

end Members

mutual

/-- The value of a node. -/
def Node.setting : Node → Setting
  | .closed value => value
  | .table _ members => .table (membersSetting members)
  | .tables items => .list (itemsSetting items).reverse

/-- The values of members. -/
def membersSetting : List (String × Node) → List (String × Setting)
  | [] => []
  | (name, node) :: rest => (name, node.setting) :: membersSetting rest

/-- The values of the tables in a list. -/
def itemsSetting : List (List (String × Node)) → List Setting
  | [] => []
  | members :: rest => .table (membersSetting members) :: itemsSetting rest

end

mutual

/-- The value that is written in one place; a name may occur only once in a table. -/
def Value.setting? : Value → Option Setting
  | .scalar value => some value
  | .list items => (itemSettings? items).map .list
  | .table entries =>
      (entriesMembers? entries []).map fun members => .table (membersSetting members)

/-- The values of the items of a list. -/
def itemSettings? : List Value → Option (List Setting)
  | [] => some []
  | item :: rest =>
      item.setting?.bind fun value => (itemSettings? rest).map (value :: ·)

/-- The members that entries add to those that are there. -/
def entriesMembers? : List (List String × Value) → Members → Option Members
  | [], members => some members
  | (path, value) :: rest, members =>
      value.setting?.bind fun value =>
        (members.enter? value path).bind fun members => entriesMembers? rest members

end

/-- Adds a statement to a document in which the table with a path has begun last. -/
def addStatement? (state : Members × List String) : Statement → Option (Members × List String)
  | .header path =>
      (state.1.within? (Members.openTable? (path.getLastD "")) path.dropLast).map (·, path)
  | .item path =>
      (state.1.within? (Members.openItem? (path.getLastD "")) path.dropLast).map (·, path)
  | .entry path value =>
      value.setting?.bind fun value =>
        (state.1.within? (Members.enter? value path) state.2).map (·, state.2)

/-- The table that a TOML text describes. -/
def parse? (text : List Char) : Option Setting :=
  (read? text).bind fun statements =>
    (statements.foldlM addStatement? (([] : Members), [])).map fun state =>
      .table (membersSetting state.1)

end EditorBridge.Toml
