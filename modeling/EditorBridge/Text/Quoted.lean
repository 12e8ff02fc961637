import EditorBridge.Text.Hex
import EditorBridge.Text.Invisible

/-!
# Quoted texts

A text between quotation marks for a message to a person, such that every character of it can be
seen: the quotation mark, the backslash, tab, line feed, carriage return and NUL have escapes of
their own, and every other character that would be invisible or would join the one before it is
written as its number.
-/

namespace EditorBridge.Text

/-- A character of a quoted text. -/
def quotedChar (c : Char) : List Char :=
  if c = '"' then ['\\', '"']
  else if c = '\\' then ['\\', '\\']
  else if c = '\t' then ['\\', 't']
  else if c = '\n' then ['\\', 'n']
  else if c = '\r' then ['\\', 'r']
  else if c = '\x00' then ['\\', '0']
  else if isInvisible c then ['\\', 'u', '{'] ++ Hex.digits c.toNat ++ ['}']
  else [c]

/-- A text between quotation marks. -/
def quoted (s : List Char) : List Char :=
  '"' :: (s.flatMap quotedChar ++ ['"'])

end EditorBridge.Text
