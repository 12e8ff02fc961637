import EditorBridge.Numeral
import EditorBridge.Settings.Basic

/-!
# Paths into settings

The name of a setting may lead into a table or a list: `clients[0].args` is the member `args` of the
first item of `clients`. Negative positions count from the end. `assign` puts a value where a path
leads and makes way for it: what stands in between and is no table or list is replaced by one. A
table that is put onto a table is merged into it, member by member; any other value takes the place
of what was there.
-/

namespace EditorBridge

/-- A step into a setting: to the member with a name, or to the item at a position. -/
inductive SettingStep where
  | member (name : String)
  | item (position : Int)
  deriving DecidableEq, Repr

namespace Setting

/-- Whether a character may stand in the name of a step. -/
def isNameChar (c : Char) : Bool :=
  c.isAlphanum || c == '_' || c == '-'

/-- Reads a position: digits, with a minus sign before them or not. -/
def position? : List Char → Option Int
  | '-' :: digits => (Numeral.run? digits).map fun n => -(n : Int)
  | digits => (Numeral.run? digits).map Int.ofNat

/-- Reads the steps after a name. The bound is on the number of steps. -/
def steps? : Nat → List Char → Option (List SettingStep)
  | _, [] => some []
  | 0, _ => none
  | bound + 1, '.' :: rest =>
      match rest.takeWhile isNameChar with
      | [] => none
      | name =>
          (steps? bound (rest.dropWhile isNameChar)).map (.member (String.ofList name) :: ·)
  | bound + 1, '[' :: rest =>
      match rest.dropWhile (· != ']') with
      | ']' :: after =>
          (position? (rest.takeWhile (· != ']'))).bind fun position =>
            (steps? bound after).map (.item position :: ·)
      | _ => none
  | _, _ => none

/-- The path that a text gives: its first name and the steps after it. A text of another form is a
single name. -/
def path (name : String) : String × List SettingStep :=
  let s := name.toList
  let first := s.takeWhile isNameChar
  match first, steps? s.length (s.dropWhile isNameChar) with
  | _ :: _, some steps => (String.ofList first, steps)
  | _, _ => (name, [])

/-- The items with the one at a position changed. Missing items before it are null; a position
before the start moves the others back. -/
def updateItem (position : Int) (change : Setting → Setting) (items : List Setting) :
    List Setting :=
  let length : Int := items.length
  if 0 ≤ position then
    let padded := items ++ List.replicate (position + 1 - length).toNat null
    padded.modify position.toNat change
  else if -position ≤ length then items.modify (length + position).toNat change
  else (List.replicate (-position - length).toNat null ++ items).modify 0 change

/-- The value with what a path leads to changed. -/
def updateAt (change : Setting → Setting) : List SettingStep → Setting → Setting
  | [], v => change v
  | .member name :: rest, v =>
      table (update name (fun old => updateAt change rest (old.getD null)) v.members)
  | .item position :: rest, v => list (updateItem position (updateAt change rest) v.items)

mutual

/-- A value put onto another one. -/
def merge : Setting → Setting → Setting
  | table incoming, old => table (mergeMembers incoming old.members)
  | v, _ => v

/-- Members put onto other ones. -/
def mergeMembers : List (String × Setting) → List (String × Setting) → List (String × Setting)
  | [], old => old
  | (name, value) :: rest, old =>
      mergeMembers rest (update name (fun there => merge value (there.getD null)) old)

end

/-- The settings with the value put where a name leads. -/
def assign (settings : Setting) (name : String) (value : Setting) : Setting :=
  let (first, steps) := path name
  updateAt (merge value) (.member first :: steps) settings

end Setting

end EditorBridge
