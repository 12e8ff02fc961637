import EditorBridge.Json.Basic
import EditorBridge.Json.Source
import EditorBridge.Binary64.Scan

/-!
# Reading JSON

What a grammatical text means. A text has no meaning when a string holds half of a surrogate pair,
a number is too great for a binary64, or arrays and objects nest deeper than `maxDepth`.

A record that is read straight from a text is stricter and more lenient than a value: a member that
the record knows must not occur twice, and a member that it does not know only has to be
grammatical. `Source.narrow` makes both decisions, after which the record is read as a value.
-/

namespace EditorBridge.Json

/-- The greatest number of arrays and objects inside each other. -/
def maxDepth : Nat := 127

namespace Source

/-- The character that a letter after a backslash stands for. -/
def shortEscape (c : Char) : Char :=
  if c == 'b' then '\x08'
  else if c == 'f' then '\x0c'
  else if c == 'n' then '\n'
  else if c == 'r' then '\r'
  else if c == 't' then '\t'
  else c

/-- The text that a spelled string stands for. The first argument holds what has been read,
reversed. -/
def unescape (done : List Char) : List Char → Option (List Char)
  | [] => some done.reverse
  | '\\' :: 'u' :: a :: b :: c :: d :: rest =>
      let unit := Text.Hex.ofDigits [a, b, c, d]
      if unit < 0xD800 || 0xDFFF < unit then unescape (Char.ofNat unit :: done) rest
      else if 0xDC00 ≤ unit then none
      else
        match rest with
        | '\\' :: 'u' :: a :: b :: c :: d :: rest =>
            let low := Text.Hex.ofDigits [a, b, c, d]
            if 0xDC00 ≤ low && low ≤ 0xDFFF then
              let code := 0x10000 + (unit - 0xD800) * 0x400 + (low - 0xDC00)
              unescape (Char.ofNat code :: done) rest
            else none
        | _ => none
  | '\\' :: c :: rest => unescape (shortEscape c :: done) rest
  | c :: rest => unescape (c :: done) rest

/-- The text of a spelled string. -/
def text? (s : List Char) : Option String :=
  (unescape [] s).map String.ofList

end Source

/-- The value of a spelled exponent. -/
def exponentValue (e : Bool × List Char) : Int :=
  if e.1 then -(Numeral.ofDigits e.2 : Int) else Numeral.ofDigits e.2

/-- The decimal literal of a spelled number. -/
def Spelling.literal (s : Spelling) : Binary64.Literal :=
  ⟨s.negative, s.whole, s.fraction, s.exponent.map exponentValue⟩

/-- The value of a spelled number: an integer if it has neither point nor exponent, fits 64 bits
and is not a negative zero, and a binary64 otherwise. -/
def Spelling.value? (s : Spelling) : Option Json :=
  let asFloat := (Binary64.quick s.literal).map float
  if s.fraction.isSome || s.exponent.isSome then asFloat
  else
    let n := Numeral.ofDigits s.whole
    if s.negative then
      if n = 0 || -(n : Int) < Int64.minValue.toInt then asFloat else some (int (-(n : Int)))
    else if UInt64.size ≤ n then asFloat
    else some (int n)

mutual

/-- The value that a text means, if arrays and objects nest at most `depth` deep. -/
def ofSource (depth : Nat) : Source → Option Json
  | .null => some null
  | .bool b => some (bool b)
  | .number spelling => spelling.value?
  | .string spelling => (Source.text? spelling).map string
  | .array items => if depth = 0 then none else (ofItems (depth - 1) items).map array
  | .object members => if depth = 0 then none else (ofMembersFrom (depth - 1) members).map ofMembers

/-- The values of the items of an array. -/
def ofItems (depth : Nat) : List Source → Option (List Json)
  | [] => some []
  | item :: rest =>
      (ofSource depth item).bind fun value => (ofItems depth rest).map (value :: ·)

/-- The members of an object in the order of the text. -/
def ofMembersFrom (depth : Nat) : List (List Char × Source) → Option (List (String × Json))
  | [] => some []
  | (name, source) :: rest =>
      (Source.text? name).bind fun key =>
        (ofSource depth source).bind fun value =>
          (ofMembersFrom depth rest).map ((key, value) :: ·)

end

/-- The value of a whole text. -/
def ofChars? (s : List Char) : Option Json :=
  (Source.read? s).bind (ofSource maxDepth)

/-- The value of a whole text. -/
def parse? (s : String) : Option Json :=
  ofChars? s.toList

namespace Source

/-- Whether one of the names occurs in the list twice. -/
def repeats (names : List String) : List String → Bool
  | [] => false
  | key :: rest => (names.contains key && rest.contains key) || repeats names rest

/-- An object with the named members only, none of which may occur twice; other texts as they
are. -/
def narrow (names : List String) : Source → Option Source
  | object members =>
      (members.mapM fun member => text? member.1).bind fun keys =>
        if repeats names keys then none
        else
          let known := (keys.zip members).filter fun pair => names.contains pair.1
          some (object (known.map Prod.snd))
  | source => some source

/-- Narrows the records that stand in a record under one of its names: by the name in an object, and
by the place of the name in an array. -/
def narrowMember (record : List String) (name : String) (names : List String) :
    Source → Option Source
  | object members =>
      (members.mapM fun member =>
        if text? member.1 = some name then (narrow names member.2).map (member.1, ·)
        else some member).map object
  | array items =>
      (items.zipIdx.mapM fun (entry : Source × Nat) =>
        if record[entry.2]? = some name then narrow names entry.1 else some entry.1).map array
  | source => some source

end Source

end EditorBridge.Json
