import EditorBridge.Json.Reader
import EditorBridge.Json.Printer
import EditorBridge.Text.Blank
import EditorBridge.Text.Quoted
import EditorBridge.Text.Utf8

/-!
# Frames

Messages on a byte stream. A frame is a block of header lines that ends with a blank line, and a
body of as many bytes as the header says. `Frame.encode` writes a frame with the one header that
matters; `Frame.read` takes one frame from the front of a stream and returns the rest of it. Other
headers are skipped, the last length counts, and a blank line where a frame could start is reported
on its own, because that is when a reader looks whether the server is still there.
-/

namespace EditorBridge.Rpc

/-- What one look at a stream finds (`FrameRead`): a frame with its body, a frame without one, a
blank line where a frame could start, or the end of the stream there. -/
inductive FrameRead where
  | message (body : Json)
  | empty
  | idle
  | closed

/-- Why a stream cannot be read on (`FramingError`): it ends between the header lines of a frame or
inside a body, the length is no number or greater than `Frame.maxLength`, or the body is not a JSON
text. -/
inductive FramingError where
  | endedInHeaders
  | endedInBody
  | invalidLength (value : String)
  | malformed
  deriving DecidableEq, Repr

/-- The wording of an error; the one of a malformed body depends on the body and is not given
(`FramingError`). -/
def FramingError.message : FramingError → Option String
  | endedInHeaders => some "I/O error while reading frame: stream ended inside frame headers"
  | endedInBody => some "I/O error while reading frame: early eof"
  | invalidLength value =>
      some ("invalid Content-Length header: " ++ String.ofList (Text.quoted value.toList))
  | malformed => none

namespace Frame

/-- What stands before the length in its header line (`CONTENT_LENGTH_HEADER`). -/
def lengthHeader : List Char := "Content-Length: ".toList

/-- The greatest length of a body, 64 MiB (`MAX_FRAME_LENGTH`). -/
def maxLength : Nat := 64 * 1024 * 1024

/-- The frame of a body that is given as text (`encode_frame`). -/
def ofText (body : List Char) : List Char :=
  lengthHeader ++ Numeral.digits (Text.Utf8.byteLength body) ++ ['\r', '\n', '\r', '\n'] ++ body

/-- The text of the frame of a value (`encode_frame`). -/
def encode (v : Json) : List Char :=
  ofText v.chars

/-- The bytes of the frame of a value (`encode_frame`). -/
def encodeBytes (v : Json) : List UInt8 :=
  Text.Utf8.encode (encode v)

/-- The bytes up to and including the first line feed, and the rest (`read_frame`). -/
def takeLine : List UInt8 → List UInt8 × List UInt8
  | [] => ([], [])
  | b :: rest =>
      if b = 10 then ([b], rest)
      else
        let (line, rest) := takeLine rest
        (b :: line, rest)

/-- A header line without the blanks around it (`read_frame`). -/
def headerText (line : List UInt8) : List Char :=
  Text.trim (Text.Utf8.decodeLossy line)

/-- What follows the prefix `expected` in a text that starts with it. -/
def afterPrefix? : List Char → List Char → Option (List Char)
  | [], s => some s
  | _ :: _, [] => none
  | c :: expected, d :: s => if c = d then afterPrefix? expected s else none

/-- The length that a header value gives (`read_frame`). -/
def length? (value : List Char) : Option Nat :=
  (Numeral.natural? (Text.trim value)).filter (· ≤ maxLength)

/-- What the header lines of a frame say (`read_frame`): they announce a body of some length, or
there were none but a blank line, or there were none and the stream is over. -/
inductive Headers where
  | body (length : Nat)
  | none
  | finished

theorem length_takeLine_lt {b : UInt8} {s : List UInt8} :
    (takeLine (b :: s)).2.length < (b :: s).length := by
  induction s generalizing b with
  | nil => simp only [takeLine]; split <;> simp
  | cons c s ih =>
      rw [takeLine]
      split
      · simp
      · have := ih (b := c)
        simp only [List.length_cons] at this ⊢
        omega

/-- Reads header lines to the blank line that ends them (`read_frame`). `length` is what the lines
so far have announced; it is `none` before the first line. -/
def readHeaders (length : Option Nat) (s : List UInt8) :
    Except FramingError (Headers × List UInt8) :=
  match s with
  | [] => if length.isSome then .error .endedInHeaders else .ok (.finished, [])
  | b :: bytes =>
      let line := headerText (takeLine (b :: bytes)).1
      let rest := (takeLine (b :: bytes)).2
      if line.isEmpty then
        .ok ((length.map Headers.body).getD .none, rest)
      else
        match afterPrefix? lengthHeader line with
        | some value =>
            match length? value with
            | some announced => readHeaders (some announced) rest
            | none => .error (.invalidLength (String.ofList value))
        | none => readHeaders (some (length.getD 0)) rest
termination_by s.length
decreasing_by
  all_goals exact length_takeLine_lt

/-- The value that the bytes of a body are (`read_frame`). -/
def bodyValue? (body : List UInt8) : Option Json :=
  (Text.Utf8.decode? body).bind Json.ofChars?

/-- Takes one frame, or a blank line before a frame, from the front of a stream (`read_frame`). -/
def read (s : List UInt8) : Except FramingError (FrameRead × List UInt8) :=
  match readHeaders none s with
  | .error e => .error e
  | .ok (.finished, rest) => .ok (.closed, rest)
  | .ok (.none, rest) => .ok (.idle, rest)
  | .ok (.body 0, rest) => .ok (.empty, rest)
  | .ok (.body length, rest) =>
      if rest.length < length then .error .endedInBody
      else
        match bodyValue? (rest.take length) with
        | some v => .ok (.message v, rest.drop length)
        | none => .error .malformed

end Frame

end EditorBridge.Rpc
