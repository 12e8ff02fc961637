import EditorBridge.Binary64.Basic

/-!
# JSON values

The values that messages carry. Integers of 64-bit range stay integers, every other number is a
binary64. An object is a list of named members in the order in which they are written. Objects
that come from a text are in normal form: sorted by name, no name twice, the last of several
members with one name kept. `insert` builds that form and `get?` reads members.
-/

namespace EditorBridge

/-- A JSON value. -/
inductive Json where
  | null
  | bool (value : Bool)
  | int (value : Int)
  | float (value : Binary64)
  | string (value : String)
  | array (items : List Json)
  | object (members : List (String × Json))
  deriving Repr, Inhabited

namespace Json

/-- The value of the first member with a name. -/
def lookup (name : String) : List (String × Json) → Option Json
  | [] => none
  | (key, value) :: rest => if key = name then some value else lookup name rest

/-- The member of an object with a name; other values have no members. -/
def get? (name : String) : Json → Option Json
  | object members => lookup name members
  | _ => none

/-- Puts a member into a sorted list of members, in the place of one with its name if there is
one. Names are ordered by code points, which is the order of their UTF-8 bytes. -/
def insert (name : String) (value : Json) : List (String × Json) → List (String × Json)
  | [] => [(name, value)]
  | (key, old) :: rest =>
      if name < key then (name, value) :: (key, old) :: rest
      else if name = key then (name, value) :: rest
      else (key, old) :: insert name value rest

/-- The members in normal form. -/
def sortMembers (members : List (String × Json)) : List (String × Json) :=
  members.foldl (fun sorted member => insert member.1 member.2 sorted) []

/-- The object with these members, in normal form. -/
def ofMembers (members : List (String × Json)) : Json :=
  object (sortMembers members)

mutual

/-- The value with the members of every object in normal form. -/
def canonical : Json → Json
  | array items => array (canonicalItems items)
  | object members => ofMembers (canonicalMembers members)
  | value => value

/-- The items of an array, each with its members in normal form. -/
def canonicalItems : List Json → List Json
  | [] => []
  | item :: rest => canonical item :: canonicalItems rest

/-- The members of an object, the members of each value in normal form. -/
def canonicalMembers : List (String × Json) → List (String × Json)
  | [] => []
  | (name, value) :: rest => (name, canonical value) :: canonicalMembers rest

end

/-- Whether the value is the JSON null. -/
def isNull : Json → Bool
  | null => true
  | _ => false

/-- The text of a string value. -/
def string? : Json → Option String
  | string value => some value
  | _ => none

/-- The items of an array. -/
def array? : Json → Option (List Json)
  | array items => some items
  | _ => none

/-- An integer value between two bounds. -/
def intBetween? (low high : Int) : Json → Option Int
  | int value => if low ≤ value && value ≤ high then some value else none
  | _ => none

/-- An integer value that fits 64 bits with a sign. -/
def int64? (v : Json) : Option Int64 :=
  (v.intBetween? Int64.minValue.toInt Int64.maxValue.toInt).map Int64.ofInt

/-- An integer value that fits 32 bits with a sign. -/
def int32? (v : Json) : Option Int32 :=
  (v.intBetween? Int32.minValue.toInt Int32.maxValue.toInt).map Int32.ofInt

/-- An integer value that fits 32 bits without a sign. -/
def uint32? (v : Json) : Option UInt32 :=
  (v.intBetween? 0 (UInt32.size - 1)).map fun n => UInt32.ofNat n.toNat

/-- An integer value that fits 64 bits without a sign. -/
def natural? (v : Json) : Option Nat :=
  (v.intBetween? 0 (UInt64.size - 1)).map Int.toNat

theorem lookup_insert_self (name : String) (value : Json) (members : List (String × Json)) :
    lookup name (insert name value members) = some value := by
  induction members with
  | nil => simp [insert, lookup]
  | cons member rest ih =>
      obtain ⟨key, old⟩ := member
      simp only [insert]
      split
      · simp [lookup]
      · split
        · simp [lookup]
        · next different => simp [lookup, Ne.symm different, ih]

theorem lookup_insert_of_ne (name other : String) (value : Json)
    (members : List (String × Json)) (different : other ≠ name) :
    lookup other (insert name value members) = lookup other members := by
  induction members with
  | nil => simp [insert, lookup, Ne.symm different]
  | cons member rest ih =>
      obtain ⟨key, old⟩ := member
      simp only [insert]
      split
      · simp [lookup, Ne.symm different]
      · split
        · next same => subst same; simp [lookup, Ne.symm different]
        · simp [lookup, ih]

end Json

end EditorBridge
