import EditorBridge.Fault
import EditorBridge.Json.Basic
import EditorBridge.Numeral
import EditorBridge.Text.Lines

/-!
# Documents of the practice server

What the practice server does with the text of a file: it applies edits, finds words and the lines
in which words are defined or used, and flags lines that speak of an error. Lines count from zero;
columns count bytes. The column of an edit is a number of 64 bits that need not lie in its line, so
that the position it gives may be a fault.
-/

namespace EditorBridge.Practice

/-- A file that is open at the server, with the version that the editor gave last (`Document`). -/
structure Document where
  text : List Char
  version : Int64

/-! ### Edits -/

/-- The byte position in a text that a line and a column give, at most the end of the text
(`apply_change`). -/
def bytePosition (a : Arithmetic) (text : List Char) (line column : Nat) : Except Fault Nat := do
  let start := Text.Utf8.byteLength ((Text.fullLines text).take line).flatten
  let position ← a.add start column
  return min position (Text.Utf8.byteLength text)

/-- The text with what stands between two byte positions replaced, if there is such a part
(`apply_change`). -/
def replace? (text : List Char) (start finish : Nat) (new : List Char) : Option (List Char) :=
  if finish < start then none
  else
    (Text.splitAtByte? start text).bind fun (before, rest) =>
      (Text.splitAtByte? (finish - start) rest).map fun (_, after) => before ++ new ++ after

/-- The byte position that a record of a line and a column gives (`apply_change`). -/
def jsonPosition? (a : Arithmetic) (text : List Char) (position : Json) :
    Except Fault (Option Nat) :=
  match (position.get? "line").bind Json.natural?,
      (position.get? "character").bind Json.natural? with
  | some line, some column => (bytePosition a text line column).map some
  | _, _ => .ok none

/-- The byte position of an end of a range (`apply_change`). -/
def rangeEnd? (a : Arithmetic) (text : List Char) (range : Json) (name : String) :
    Except Fault (Option Nat) :=
  match range.get? name with
  | some position => jsonPosition? a text position
  | none => .ok none

/-- The text after a change (`apply_change`): the new text, or the text with a range replaced. A
change that makes no sense changes nothing. -/
def applyChange (a : Arithmetic) (text : List Char) (change : Json) : Except Fault (List Char) :=
  match (change.get? "text").bind Json.string?, change.get? "range" with
  | none, _ => .ok text
  | some new, none => .ok new.toList
  | some new, some range => do
      -- Both ends are looked at before either is asked for.
      let start? ← rangeEnd? a text range "start"
      let finish? ← rangeEnd? a text range "end"
      let replaced := start?.bind fun start =>
        finish?.bind fun finish => replace? text start finish new.toList
      return replaced.getD text

/-! ### Words -/

/-- Whether a character is part of words (`is_word_char`). -/
def isWordChar (c : Char) : Bool :=
  c.isAlphanum || c == '_'

/-- A word, and the column where it starts (`word_bounds`). -/
structure Word where
  chars : List Char
  start : Nat
  deriving DecidableEq, Repr

/-- The column where a word ends. -/
def Word.finish (w : Word) : Nat :=
  w.start + w.chars.length

/-- The word at a column of a line (`word_bounds`). -/
def wordAt? (line : List Char) (column : Nat) : Option Word :=
  match Text.splitAtByte? column line with
  | some (before, c :: after) =>
      if isWordChar c then
        let left := (before.reverse.takeWhile isWordChar).reverse
        some ⟨left ++ c :: after.takeWhile isWordChar, column - left.length⟩
      else none
  | _ => none

namespace Document

/-- The word at a line and a column. -/
def wordAt? (d : Document) (line column : Nat) : Option Word :=
  ((Text.lines d.text)[line]?).bind (Practice.wordAt? · column)

/-- A column range of a line: its first column, and the column after its last one. -/
structure Stretch where
  line : Nat
  start : Nat
  finish : Nat
  deriving DecidableEq, Repr

/-- The words in front of a name that is defined there (`MockServer::handle_definition`). -/
def keywords : List (List Char) :=
  ["fn ", "function ", "def ", "let ", "const "].map String.toList

/-- Where a line defines a word, by the first keyword that stands in front of it
(`MockServer::handle_definition`). -/
def definedIn? (word line : List Char) : Option Nat :=
  keywords.findSome? fun keyword =>
    (Text.find? 0 (keyword ++ word) line).map (· + keyword.length)

/-- Where the word at a line and a column is defined (`MockServer::handle_definition`): in the first
line that defines it, or else at that very place. -/
def definition? (d : Document) (line column : Nat) : Option Stretch :=
  (d.wordAt? line column).map fun word =>
    let found := (Text.lines d.text).zipIdx.findSome? fun (text, n) =>
      (definedIn? word.chars text).map fun start => Stretch.mk n start (start + word.chars.length)
    found.getD ⟨line, word.start, word.finish⟩

/-- Where the word at a line and a column occurs (`MockServer::handle_references`). -/
def references? (d : Document) (line column : Nat) : Option (List Stretch) :=
  (d.wordAt? line column).map fun word =>
    (Text.lines d.text).zipIdx.flatMap fun (text, n) =>
      (Text.occurrences word.chars text).map fun start => ⟨n, start, start + word.chars.length⟩

/-- The word that flags a line (`MockServer::publish_diagnostics`). -/
def flag : List Char := "error".toList

/-- The places where lines are flagged (`MockServer::publish_diagnostics`). -/
def flagged (d : Document) : List Stretch :=
  (Text.lines d.text).zipIdx.filterMap fun (text, n) =>
    (Text.find? 0 flag text).map fun start => ⟨n, start, start + flag.length⟩

end Document

end EditorBridge.Practice
