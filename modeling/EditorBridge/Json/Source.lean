import EditorBridge.Numeral
import EditorBridge.Text.Hex

/-!
# JSON texts

A JSON text taken apart by its grammar and nothing more: numbers and strings keep their spelling,
an object keeps every member, nesting has no limit. What a spelling means is decided by
`Json.Reader`; a part that a reader skips only has to be grammatical, which is what `Source.read?`
checks. Reading consumes the text from the left and returns what is left of it. The functions that
call themselves through brackets carry a bound on the number of calls; `read?` sets it from the
length of the text, high enough for every text.
-/

namespace EditorBridge.Json

/-- A number as it is spelled: whether a minus sign stands in front, the digits before and after the
decimal point, if there is one, and the sign and the digits of the exponent, if there is one. A sign
that is true is a minus sign. -/
structure Spelling where
  negative : Bool
  whole : List Char
  fraction : Option (List Char)
  exponent : Option (Bool × List Char)
  deriving DecidableEq, Repr

/-- A grammatical JSON text. Strings are the characters between the quotation marks. -/
inductive Source where
  | null
  | bool (value : Bool)
  | number (spelling : Spelling)
  | string (spelling : List Char)
  | array (items : List Source)
  | object (members : List (List Char × Source))
  deriving Repr, Inhabited

namespace Source

/-- Whether a character may stand between the parts of a text. -/
def isGap (c : Char) : Bool :=
  c == ' ' || c == '\t' || c == '\n' || c == '\r'

/-- The text without the gap at its start. -/
def skipGap (s : List Char) : List Char :=
  s.dropWhile isGap

/-- Whether a character may follow a backslash without digits. -/
def isShortEscape (c : Char) : Bool :=
  c == '"' || c == '\\' || c == '/' || c == 'b' || c == 'f' || c == 'n' || c == 'r' || c == 't'

/-- Reads a string after its opening quotation mark. The first argument holds what has been read,
reversed. Control characters and unknown escapes are refused. -/
def readString (done : List Char) : List Char → Option (List Char × List Char)
  | [] => none
  | '"' :: rest => some (done.reverse, rest)
  | '\\' :: 'u' :: a :: b :: c :: d :: rest =>
      if [a, b, c, d].all Text.Hex.isDigit then
        readString (d :: c :: b :: a :: 'u' :: '\\' :: done) rest
      else none
  | '\\' :: c :: rest => if isShortEscape c then readString (c :: '\\' :: done) rest else none
  | c :: rest => if c.toNat < 0x20 || c == '\\' then none else readString (c :: done) rest

/-- The digits at the start of a text, at least one, and the rest. -/
def readDigits (s : List Char) : Option (List Char × List Char) :=
  match s.takeWhile Numeral.isDigit with
  | [] => none
  | digits => some (digits, s.dropWhile Numeral.isDigit)

/-- Reads the digits before the decimal point: a zero stands alone. -/
def readWhole : List Char → Option (List Char × List Char)
  | '0' :: rest => if (rest.head?.map Numeral.isDigit).getD false then none else some (['0'], rest)
  | s => readDigits s

/-- Reads the decimal point and the digits after it, if they are there. -/
def readFraction : List Char → Option (Option (List Char) × List Char)
  | '.' :: rest => (readDigits rest).map fun (digits, rest) => (some digits, rest)
  | s => some (none, s)

/-- Reads an exponent, if one is there. -/
def readExponent : List Char → Option (Option (Bool × List Char) × List Char)
  | c :: rest =>
      if c == 'e' || c == 'E' then
        match rest with
        | '-' :: rest => (readDigits rest).map fun (digits, rest) => (some (true, digits), rest)
        | '+' :: rest => (readDigits rest).map fun (digits, rest) => (some (false, digits), rest)
        | rest => (readDigits rest).map fun (digits, rest) => (some (false, digits), rest)
      else some (none, c :: rest)
  | [] => some (none, [])

/-- Reads the part of a number after its sign. -/
def readUnsigned (negative : Bool) (s : List Char) : Option (Spelling × List Char) :=
  (readWhole s).bind fun (whole, s) =>
    (readFraction s).bind fun (fraction, s) =>
      (readExponent s).map fun (exponent, s) => (⟨negative, whole, fraction, exponent⟩, s)

/-- Reads a number. -/
def readNumber : List Char → Option (Spelling × List Char)
  | '-' :: rest => readUnsigned true rest
  | s => readUnsigned false s

mutual

/-- Reads a value that starts with the first character. -/
def readValue : Nat → List Char → Option (Source × List Char)
  | 0, _ => none
  | calls + 1, s =>
      match s with
      | 'n' :: 'u' :: 'l' :: 'l' :: rest => some (null, rest)
      | 't' :: 'r' :: 'u' :: 'e' :: rest => some (bool true, rest)
      | 'f' :: 'a' :: 'l' :: 's' :: 'e' :: rest => some (bool false, rest)
      | '"' :: rest => (readString [] rest).map fun (text, rest) => (string text, rest)
      | '[' :: rest =>
          match skipGap rest with
          | ']' :: rest => some (array [], rest)
          | start =>
              (readValue calls start).bind fun (item, rest) =>
                (readItems calls rest).map fun (items, rest) => (array (item :: items), rest)
      | '{' :: rest =>
          match skipGap rest with
          | '}' :: rest => some (object [], rest)
          | start =>
              (readMember calls start).bind fun (member, rest) =>
                (readMembers calls rest).map fun (members, rest) =>
                  (object (member :: members), rest)
      | s => (readNumber s).map fun (spelling, rest) => (number spelling, rest)

/-- Reads the items after one that has been read, and the closing bracket. -/
def readItems : Nat → List Char → Option (List Source × List Char)
  | 0, _ => none
  | calls + 1, s =>
      match skipGap s with
      | ']' :: rest => some ([], rest)
      | ',' :: rest =>
          (readValue calls (skipGap rest)).bind fun (item, rest) =>
            (readItems calls rest).map fun (items, rest) => (item :: items, rest)
      | _ => none

/-- Reads a name, a colon and a value. -/
def readMember : Nat → List Char → Option ((List Char × Source) × List Char)
  | 0, _ => none
  | calls + 1, s =>
      match s with
      | '"' :: rest =>
          (readString [] rest).bind fun (name, rest) =>
            match skipGap rest with
            | ':' :: rest =>
                (readValue calls (skipGap rest)).map fun (value, rest) => ((name, value), rest)
            | _ => none
      | _ => none

/-- Reads the members after one that has been read, and the closing brace. -/
def readMembers : Nat → List Char → Option (List (List Char × Source) × List Char)
  | 0, _ => none
  | calls + 1, s =>
      match skipGap s with
      | '}' :: rest => some ([], rest)
      | ',' :: rest =>
          (readMember calls (skipGap rest)).bind fun (member, rest) =>
            (readMembers calls rest).map fun (members, rest) => (member :: members, rest)
      | _ => none

end

/-- Reads a whole text: one value with gaps around it. -/
def read? (s : List Char) : Option Source :=
  match readValue (3 * s.length + 3) (skipGap s) with
  | some (source, rest) => if (skipGap rest).isEmpty then some source else none
  | none => none

end Source

end EditorBridge.Json
