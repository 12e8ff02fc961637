import EditorBridge.Text.Hex

/-!
# TOML texts in quotes

The four forms of quoted texts: with or without escapes, on one line or on several. A reader starts
after the opening quotes and gives the text with what follows the closing quotes. Line ends inside
a text are written as line feeds.
-/

namespace EditorBridge.Toml

/-- Whether a character may stand in a text or a comment as it is. -/
def isPlain (c : Char) : Bool :=
  c == '\t' || (0x20 ≤ c.toNat && c.toNat != 0x7F)

/-- Whether a character is a blank inside a line. -/
def isBlank (c : Char) : Bool :=
  c == ' ' || c == '\t'

/-- Whether a backslash joins the lines here: nothing but blanks follow it in its line. -/
def joinsLines (s : List Char) : Bool :=
  match s.dropWhile isBlank with
  | '\n' :: _ | '\r' :: '\n' :: _ => true
  | _ => false

/-- The character that a letter after a backslash stands for. -/
def shortEscape? (c : Char) : Option Char :=
  if c = 'b' then some '\x08'
  else if c = 't' then some '\t'
  else if c = 'n' then some '\n'
  else if c = 'f' then some '\x0c'
  else if c = 'r' then some '\r'
  else if c = 'e' then some '\x1b'
  else if c = '"' || c = '\\' then some c
  else none

/-- The character with the number that hexadecimal digits give. -/
def numbered? (digits : List Char) : Option Char :=
  if digits.all Text.Hex.isDigit then
    let n := Text.Hex.ofDigits digits
    if n < 0xD800 || (0xDFFF < n && n < 0x110000) then some (Char.ofNat n) else none
  else none

/-- How many digits follow the letter of a numbered escape. -/
def numberedLength (c : Char) : Nat :=
  if c = 'x' then 2 else if c = 'u' then 4 else if c = 'U' then 8 else 0

/-- What comes next in a text with escapes: anything, or the letter of an escape, or so many more
digits of a numbered one, of which those seen are kept, reversed, or blanks and line ends that do
not count. -/
inductive Expect where
  | any
  | letter
  | digits (more : Nat) (seen : List Char)
  | filler

/-- Whether blanks and line ends do not count. -/
def Expect.isFiller : Expect → Bool
  | filler => true
  | _ => false

/-- Reads a text with escapes. The first argument says whether it may have several lines, `done`
holds what has been read, reversed. -/
def readEscaped (lines : Bool) (expect : Expect) (done : List Char) :
    List Char → Option (List Char × List Char)
  | [] => none
  | c :: rest =>
      match expect with
      | .letter =>
          if lines && joinsLines (c :: rest) then readEscaped lines .filler done rest
          else if numberedLength c = 0 then
            (shortEscape? c).bind fun e => readEscaped lines .any (e :: done) rest
          else readEscaped lines (.digits (numberedLength c) []) done rest
      | .digits more seen =>
          if more ≤ 1 then
            (numbered? (c :: seen).reverse).bind fun e => readEscaped lines .any (e :: done) rest
          else readEscaped lines (.digits (more - 1) (c :: seen)) done rest
      | _ =>
          if expect.isFiller && (isBlank c || c == '\n' || c == '\r') then
            readEscaped lines .filler done rest
          else if c = '\\' then readEscaped lines .letter done rest
          else if c = '"' then
            if lines then
              match rest with
              | '"' :: '"' :: '"' :: '"' :: after => some (('"' :: '"' :: done).reverse, after)
              | '"' :: '"' :: '"' :: after => some (('"' :: done).reverse, after)
              | '"' :: '"' :: after => some (done.reverse, after)
              | _ => readEscaped lines .any ('"' :: done) rest
            else some (done.reverse, rest)
          else if lines && c = '\n' then readEscaped lines .any ('\n' :: done) rest
          else if lines && c = '\r' && rest.head? = some '\n' then
            readEscaped lines .any done rest
          else if isPlain c then readEscaped lines .any (c :: done) rest
          else none

/-- Reads a text without escapes on one line. -/
def readPlain (done : List Char) : List Char → Option (List Char × List Char)
  | [] => none
  | c :: rest =>
      if c = '\'' then some (done.reverse, rest)
      else if isPlain c then readPlain (c :: done) rest
      else none

/-- Reads a text without escapes on several lines. -/
def readPlainLines (done : List Char) : List Char → Option (List Char × List Char)
  | '\'' :: '\'' :: '\'' :: '\'' :: '\'' :: rest => some (('\'' :: '\'' :: done).reverse, rest)
  | '\'' :: '\'' :: '\'' :: '\'' :: rest => some (('\'' :: done).reverse, rest)
  | '\'' :: '\'' :: '\'' :: rest => some (done.reverse, rest)
  | '\r' :: '\n' :: rest => readPlainLines ('\n' :: done) rest
  | c :: rest => if c = '\n' || isPlain c then readPlainLines (c :: done) rest else none
  | [] => none

/-- The text without the line end right after the opening quotes. -/
def skipLineEnd : List Char → List Char
  | '\n' :: rest => rest
  | '\r' :: '\n' :: rest => rest
  | s => s

/-- Reads a quoted text on one line. -/
def readQuoted : List Char → Option (List Char × List Char)
  | '"' :: rest => readEscaped false .any [] rest
  | '\'' :: rest => readPlain [] rest
  | _ => none

/-- Reads a quoted text of any form. -/
def readText : List Char → Option (List Char × List Char)
  | '"' :: '"' :: '"' :: rest => readEscaped true .any [] (skipLineEnd rest)
  | '\'' :: '\'' :: '\'' :: rest => readPlainLines [] (skipLineEnd rest)
  | s => readQuoted s

end EditorBridge.Toml
