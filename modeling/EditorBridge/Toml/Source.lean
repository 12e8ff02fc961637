import EditorBridge.Toml.Scalar
import EditorBridge.Toml.Text

/-!
# TOML texts

A TOML text taken apart into its statements: headers of tables, headers of lists of tables, and
entries. Which statements go together is decided by `Toml.Document`. Lists and inline tables nest at
most `maxDepth` deep. The functions that call themselves through brackets carry a bound on the
number of calls, which `read?` sets from the length of the text.
-/

namespace EditorBridge.Toml

/-- The value of an entry: a text, a number, a truth value, a date or a time, or a list, or a table
written on its own, with the names in front of each value. -/
inductive Value where
  | scalar (value : Setting)
  | list (items : List Value)
  | table (entries : List (List String × Value))

/-- A statement of a TOML text: a table begins, or a table that is one more item of a list, or a
value is put into the table that has begun last. -/
inductive Statement where
  | header (path : List String)
  | item (path : List String)
  | entry (path : List String) (value : Value)

/-- How deep lists and inline tables nest. -/
def maxDepth : Nat := 80

/-- The text without blanks, line ends and comments at its start; `none` if a comment holds a
character that it must not hold. -/
def skipFiller (inComment : Bool) : List Char → Option (List Char)
  | [] => some []
  | '\n' :: rest => skipFiller false rest
  | '\r' :: '\n' :: rest => skipFiller false rest
  | c :: rest =>
      if inComment then if isPlain c then skipFiller true rest else none
      else if isBlank c then skipFiller false rest
      else if c = '#' then skipFiller true rest
      else some (c :: rest)

/-- The text without the rest of its line, if that is blank but for a comment. -/
def endLine? (s : List Char) : Option (List Char) :=
  match s.dropWhile isBlank with
  | [] | '#' :: _ | '\n' :: _ | '\r' :: '\n' :: _ => skipFiller false s
  | _ => none

/-- Whether a character may stand in a name without quotes. -/
def isNameChar (c : Char) : Bool :=
  c.isAlphanum || c == '_' || c == '-'

/-- Reads a name. -/
def readName (s : List Char) : Option (String × List Char) :=
  match s.takeWhile isNameChar with
  | [] => (readQuoted s).map fun (name, rest) => (String.ofList name, rest)
  | name => some (String.ofList name, s.dropWhile isNameChar)

/-- Reads names with points between them. The bound is on the number of names. -/
def readPath : Nat → List Char → Option (List String × List Char)
  | 0, _ => none
  | bound + 1, s =>
      (readName (s.dropWhile isBlank)).bind fun (name, rest) =>
        match rest.dropWhile isBlank with
        | '.' :: rest => (readPath bound rest).map fun (path, rest) => (name :: path, rest)
        | rest => some ([name], rest)

/-- Whether a character ends a value without quotes. -/
def endsScalar (c : Char) : Bool :=
  isBlank c || ['\n', '\r', ',', ']', '}', '#', '='].contains c

/-- Reads a value without quotes. A date may be parted from the time after it by a single space. -/
def readScalar (s : List Char) : Option (Value × List Char) :=
  let word := s.takeWhile fun c => !endsScalar c
  let rest := s.dropWhile fun c => !endsScalar c
  let (word, rest) :=
    match date? word, rest with
    | some (_, []), ' ' :: c :: more =>
        if Numeral.isDigit c then
          (word ++ ' ' :: (c :: more).takeWhile fun c => !endsScalar c,
            (c :: more).dropWhile fun c => !endsScalar c)
        else (word, rest)
    | _, _ => (word, rest)
  (scalar? word).map fun v => (.scalar v, rest)

mutual

/-- Reads a value. -/
def readValue (depth : Nat) : Nat → List Char → Option (Value × List Char)
  | 0, _ => none
  | bound + 1, s =>
      match s with
      | '[' :: rest => if depth = 0 then none else readItems (depth - 1) bound [] rest
      | '{' :: rest => if depth = 0 then none else readEntries (depth - 1) bound [] rest
      | '"' :: _ | '\'' :: _ =>
          (readText s).map fun (text, rest) => (.scalar (.text (String.ofList text)), rest)
      | _ => readScalar s

/-- Reads the items of a list after the opening bracket or a comma. -/
def readItems (depth : Nat) : Nat → List Value → List Char → Option (Value × List Char)
  | 0, _, _ => none
  | bound + 1, done, s =>
      (skipFiller false s).bind fun s =>
        match s with
        | ']' :: rest => some (.list done.reverse, rest)
        | _ =>
            (readValue depth bound s).bind fun (value, rest) =>
              (skipFiller false rest).bind fun rest =>
                match rest with
                | ',' :: rest => readItems depth bound (value :: done) rest
                | ']' :: rest => some (.list (value :: done).reverse, rest)
                | _ => none

/-- Reads the entries of a table after the opening brace or a comma. -/
def readEntries (depth : Nat) :
    Nat → List (List String × Value) → List Char → Option (Value × List Char)
  | 0, _, _ => none
  | bound + 1, done, s =>
      (skipFiller false s).bind fun s =>
        match s with
        | '}' :: rest => some (.table done.reverse, rest)
        | _ =>
            (readPath s.length s).bind fun (path, rest) =>
              match rest with
              | '=' :: rest =>
                  (readValue depth bound (rest.dropWhile isBlank)).bind fun (value, rest) =>
                    (skipFiller false rest).bind fun rest =>
                      match rest with
                      | ',' :: rest => readEntries depth bound ((path, value) :: done) rest
                      | '}' :: rest => some (.table ((path, value) :: done).reverse, rest)
                      | _ => none
              | _ => none

end

/-- Reads a statement. -/
def readStatement (s : List Char) : Option (Statement × List Char) :=
  match s with
  | '[' :: '[' :: rest =>
      (readPath rest.length rest).bind fun (path, rest) =>
        match rest with
        | ']' :: ']' :: rest => some (.item path, rest)
        | _ => none
  | '[' :: rest =>
      (readPath rest.length rest).bind fun (path, rest) =>
        match rest with
        | ']' :: rest => some (.header path, rest)
        | _ => none
  | _ =>
      (readPath s.length s).bind fun (path, rest) =>
        match rest with
        | '=' :: rest =>
            (readValue maxDepth (rest.length + 1) (rest.dropWhile isBlank)).map fun
              (value, rest) => (.entry path value, rest)
        | _ => none

/-- Reads statements, each on a line of its own. The bound is on the number of statements. -/
def readStatements : Nat → List Char → Option (List Statement)
  | _, [] => some []
  | 0, _ => none
  | bound + 1, s =>
      (readStatement s).bind fun (statement, rest) =>
        (endLine? rest).bind fun rest => (readStatements bound rest).map (statement :: ·)

/-- The text without a byte order mark at its start. -/
def skipMark : List Char → List Char
  | '\uFEFF' :: rest => rest
  | s => s

/-- The statements of a TOML text. -/
def read? (s : List Char) : Option (List Statement) :=
  (skipFiller false (skipMark s)).bind fun s => readStatements (s.length + 1) s

end EditorBridge.Toml
