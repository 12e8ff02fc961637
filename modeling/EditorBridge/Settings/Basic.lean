import EditorBridge.Binary64.Shortest

/-!
# Settings

The values that configuration files and the environment give, before anybody knows what they are
for. A reader that wants a natural number or a text accepts more than that: `natural?` also takes
texts, truth values and fractions, `text?` also takes truth values and numbers.
-/

namespace EditorBridge

/-- A number with a fractional part, or what takes its place: an infinity, negative or not, or no
number at all. -/
inductive Amount where
  | finite (value : Binary64)
  | infinite (negative : Bool)
  | undefined
  deriving DecidableEq, Repr

namespace Amount

/-- The text of an amount, without an exponent. -/
def text : Amount → String
  | finite x => String.ofList x.positional
  | infinite true => "-inf"
  | infinite false => "inf"
  | undefined => "NaN"

/-- The greatest natural number of a setting. -/
def greatest : Nat := UInt64.size - 1

/-- The nearest natural number of a setting, a half away from zero. -/
def natural : Amount → Nat
  | finite x => if x.negative then 0 else min greatest x.roundAway
  | infinite negative => if negative then 0 else greatest
  | undefined => 0

end Amount

/-- A value of a configuration. -/
inductive Setting where
  | null
  | bool (value : Bool)
  | int (value : Int)
  | amount (value : Amount)
  | text (value : String)
  | list (items : List Setting)
  | table (members : List (String × Setting))
  deriving Repr, Inhabited

namespace Setting

/-- The value with a name in a list of members. -/
def lookup (name : String) : List (String × Setting) → Option Setting
  | [] => none
  | (key, value) :: rest => if key = name then some value else lookup name rest

/-- The members with the value of one name changed; a name that is not there is added at the
end. -/
def update (name : String) (change : Option Setting → Setting) :
    List (String × Setting) → List (String × Setting)
  | [] => [(name, change none)]
  | (key, value) :: rest =>
      if key = name then (key, change (some value)) :: rest
      else (key, value) :: update name change rest

/-- The members of a table; other values have none. -/
def members : Setting → List (String × Setting)
  | table members => members
  | _ => []

/-- The items of a list; other values have none. -/
def items : Setting → List Setting
  | list items => items
  | _ => []

/-- The words that stand for one and for zero. -/
def wordValue? (word : String) : Option Nat :=
  if ["true", "on", "yes"].contains word then some 1
  else if ["false", "off", "no"].contains word then some 0
  else none

/-- The value as a natural number of 64 bits. -/
def natural? : Setting → Option Nat
  | bool b => some b.toNat
  | int n => if 0 ≤ n then some n.toNat else none
  | amount x => some x.natural
  | text s =>
      match wordValue? (s.map Char.toLower) with
      | some n => some n
      | none => (Numeral.natural? s.toList).filter (· ≤ Amount.greatest)
  | _ => none

/-- The value as a text. -/
def text? : Setting → Option String
  | bool b => some (if b then "true" else "false")
  | int n => some (String.ofList (Numeral.integer n))
  | amount x => some x.text
  | text s => some s
  | _ => none

/-- The value as a list of texts. -/
def texts? : Setting → Option (List String)
  | list items => items.mapM text?
  | _ => none

/-- The value as a table of texts. -/
def textTable? : Setting → Option (List (String × String))
  | table members => members.mapM fun member => member.2.text?.map (member.1, ·)
  | _ => none

/-- The value as a text that may be missing. -/
def optionalText? : Setting → Option (Option String)
  | null => some none
  | v => v.text?.map some

end Setting

end EditorBridge
