import EditorBridge.Json.Basic

/-!
# Records in JSON

A record is written as an object, and may be read from an object or from an array that gives the
members in the order of the record. In an object, members that the record does not know are
ignored. In an array nothing may be surplus, and only members with a default may be missing, at the
end. `members` reads both forms into one list; the functions below it read single members.
-/

namespace EditorBridge.Json

/-- The members of a record, by name from an object or by position from an array. The last
`defaulted` names are those that an array may leave out. -/
def members? (names : List String) (defaulted : Nat) : Json → Option (List (Option Json))
  | object fields => some (names.map (lookup · fields))
  | array items =>
      if items.length ≤ names.length && names.length ≤ items.length + defaulted then
        some (items.map some ++ List.replicate (names.length - items.length) none)
      else none
  | _ => none

/-- A member that has to be there. -/
def required {α : Type} (read : Json → Option α) : Option Json → Option α
  | some v => read v
  | none => none

/-- A member that may be missing or null. -/
def optional {α : Type} (read : Json → Option α) : Option Json → Option (Option α)
  | none => some none
  | some null => some none
  | some v => (read v).map some

/-- A member that is null when it is missing. -/
def orNull (v : Option Json) : Json :=
  v.getD null

/-- Reads every item of an array. -/
def listOf? {α : Type} (read : Json → Option α) : Json → Option (List α)
  | array items => items.mapM read
  | _ => none

/-- A written member that is left out when there is no value. -/
def field? {α : Type} (name : String) (write : α → Json) : Option α → List (String × Json)
  | none => []
  | some value => [(name, write value)]

end EditorBridge.Json
