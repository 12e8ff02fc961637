import EditorBridge.Json.Basic
import EditorBridge.Binary64.Shortest
import EditorBridge.Numeral
import EditorBridge.Text.Hex

/-!
# Writing JSON

The compact text of a value: no blanks, members in their order, and in strings only the quotation
mark, the backslash and the characters below U+0020 escaped.
-/

namespace EditorBridge.Json

/-- A character as it is written inside a string. -/
def escape (c : Char) : List Char :=
  if c = '"' then ['\\', '"']
  else if c = '\\' then ['\\', '\\']
  else if c = '\n' then ['\\', 'n']
  else if c = '\r' then ['\\', 'r']
  else if c = '\t' then ['\\', 't']
  else if c = '\x08' then ['\\', 'b']
  else if c = '\x0c' then ['\\', 'f']
  else if c.toNat < 0x20 then
    ['\\', 'u', '0', '0', Text.Hex.digit (c.toNat / 16), Text.Hex.digit (c.toNat % 16)]
  else [c]

/-- A string with its quotation marks. -/
def quote (s : String) : List Char :=
  '"' :: (s.toList.flatMap escape ++ ['"'])

mutual

/-- The characters of a value's text. -/
def chars : Json → List Char
  | null => ['n', 'u', 'l', 'l']
  | bool true => ['t', 'r', 'u', 'e']
  | bool false => ['f', 'a', 'l', 's', 'e']
  | int n => Numeral.integer n
  | float x => x.render
  | string s => quote s
  | array [] => ['[', ']']
  | array (item :: rest) => '[' :: (chars item ++ itemChars rest)
  | object [] => ['{', '}']
  | object ((name, value) :: rest) =>
      '{' :: (quote name ++ ':' :: (chars value ++ memberChars rest))

/-- The items after the first one, and the closing bracket. -/
def itemChars : List Json → List Char
  | [] => [']']
  | item :: rest => ',' :: (chars item ++ itemChars rest)

/-- The members after the first one, and the closing brace. -/
def memberChars : List (String × Json) → List Char
  | [] => ['}']
  | (name, value) :: rest => ',' :: (quote name ++ ':' :: (chars value ++ memberChars rest))

end

/-- The compact text of a value. -/
def render (v : Json) : String :=
  String.ofList v.chars

end EditorBridge.Json
