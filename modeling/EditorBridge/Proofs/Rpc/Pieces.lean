import EditorBridge.Proofs.Rpc.Padding

/-!
# Pieces of a stream

A server that keeps to the protocol writes one piece after the other: a frame with a body, a frame
without one, or a blank line. One look at a stream finds the piece at its start, whatever follows
(`read_piece`), so the looks at a stream of pieces find the pieces in their order and always end
where a piece ends (`Looks.pieces`).
-/

namespace EditorBridge.Rpc.Frame

/-- A frame with a body, made of header lines, the blank line behind them, and the text of the body,
which means a value: the last length that its header lines announce is that of the body. -/
structure WholeFrame where
  lines : List AnyHeaderLine
  stop : EmptyLine
  body : List UInt8
  value : Json
  announced : lines.foldl AnyHeaderLine.follow none = some body.length
  filled : body ≠ []
  meaning : bodyValue? body = some value

/-- The bytes of a frame with a body. -/
def WholeFrame.bytes (frame : WholeFrame) : List UInt8 :=
  frame.lines.flatMap (fun line => line.content ++ [10]) ++
    (frame.stop.content ++ [10] ++ frame.body)

theorem headerText_lengthLine_ne_nil (v : Json) : headerText (lengthLine v ++ [10]) ≠ [] := by
  rw [headerText_lengthLine, lengthText]
  exact List.append_ne_nil_of_left_ne_nil (by decide) _

theorem announces_lengthLine {v : Json} (sendable : Sendable v) :
    (afterPrefix? lengthHeader (headerText (lengthLine v ++ [10]))).map length? =
      (some (Text.Utf8.byteLength v.chars)).map some := by
  rw [headerText_lengthLine, lengthText, afterPrefix?_append, Option.map_some,
    length?_digits sendable.fits]
  rfl

theorem encode_chars_ne_nil {v : Json} (sendable : Sendable v) :
    Text.Utf8.encode v.chars ≠ [] := by
  have positive := byteLength_chars_pos sendable.exact
  rw [← Text.Utf8.length_encode] at positive
  exact List.ne_nil_of_length_pos positive

theorem lineFeed_notMem_return : (10 : UInt8) ∉ [13] := by
  decide

theorem headerText_return : headerText ([13] ++ [10]) = [] := by
  decide +kernel

/-- The blank line that ends the header lines of the bridge. -/
def EmptyLine.withReturn : EmptyLine :=
  ⟨[13], lineFeed_notMem_return, headerText_return⟩

/-- The frame in which a value is sent. -/
def WholeFrame.ofValue (v : Json) (sendable : Sendable v) : WholeFrame where
  lines := [⟨lengthLine v, some (Text.Utf8.byteLength v.chars), lineFeed_notMem_lengthLine v,
    headerText_lengthLine_ne_nil v, announces_lengthLine sendable⟩]
  stop := .withReturn
  body := Text.Utf8.encode v.chars
  value := v
  announced := congrArg some (Text.Utf8.length_encode v.chars).symm
  filled := encode_chars_ne_nil sendable
  meaning := bodyValue?_encode sendable

/-- What a server writes at a time. -/
inductive Piece where
  | blankLine (line : EmptyLine)
  | hollowFrame (frame : HollowFrame)
  | wholeFrame (frame : WholeFrame)

namespace Piece

/-- The bytes of a piece. -/
def bytes : Piece → List UInt8
  | blankLine line => line.content ++ [10]
  | hollowFrame frame =>
      frame.lines.flatMap (fun line => line.content ++ [10]) ++ (frame.stop.content ++ [10])
  | wholeFrame frame => frame.bytes

/-- What is found in a piece. -/
def found : Piece → FrameRead
  | blankLine _ => .idle
  | hollowFrame _ => .empty
  | wholeFrame frame => .message frame.value

/-- Whether a piece is a blank line. -/
def isBlank : Piece → Bool
  | blankLine _ => true
  | hollowFrame _ | wholeFrame _ => false

theorem isClosed_found (piece : Piece) : piece.found.isClosed = false := by
  cases piece <;> rfl

theorem found_eq_idle_iff {piece : Piece} : piece.found = .idle ↔ piece.isBlank = true := by
  cases piece <;> simp [found, isBlank]

end Piece

/-- The header lines of a frame end with its blank line. -/
theorem readHeaders_lines_stop (lines : List AnyHeaderLine) (stop : EmptyLine)
    (rest : List UInt8) :
    readHeaders none (lines.flatMap (fun line => line.content ++ [10]) ++
      (stop.content ++ 10 :: rest)) =
        .ok (((lines.foldl AnyHeaderLine.follow none).map Headers.body).getD .none, rest) := by
  rw [readHeaders_anyHeaderLines, readHeaders_of_blank stop.oneLine stop.blank]

/-- A look finds the piece at the start of a stream and leaves what follows. -/
theorem read_piece (piece : Piece) (rest : List UInt8) :
    read (piece.bytes ++ rest) = .ok (piece.found, rest) := by
  cases piece with
  | blankLine line =>
      have headers := readHeaders_lines_stop [] line rest
      exact read_of_none (by simpa [Piece.bytes] using headers)
  | hollowFrame frame =>
      have headers := readHeaders_lines_stop frame.lines frame.stop rest
      rw [frame.hollow] at headers
      exact read_of_zero (by simpa [Piece.bytes] using headers)
  | wholeFrame frame =>
      have headers := readHeaders_lines_stop frame.lines frame.stop (frame.body ++ rest)
      rw [frame.announced] at headers
      have filled : frame.body.length ≠ 0 := mt List.length_eq_zero_iff.mp frame.filled
      have whole : ¬ (frame.body ++ rest).length < frame.body.length := by
        rw [List.length_append]
        omega
      have look := read_of_body filled headers
      rw [if_neg whole, List.take_left, List.drop_left, frame.meaning] at look
      simpa [Piece.bytes, WholeFrame.bytes, Piece.found] using look

/-- The looks at a stream of pieces find the pieces, and what is left starts with the next one. -/
theorem Looks.pieces {pieces : List Piece} {rest : List UInt8} {founds : List FrameRead}
    (looks : Looks (pieces.flatMap Piece.bytes) founds rest) :
    ∃ front behind, pieces = front ++ behind ∧ founds = front.map Piece.found ∧
      rest = behind.flatMap Piece.bytes := by
  generalize stream : pieces.flatMap Piece.bytes = s at looks
  induction looks generalizing pieces with
  | none s => exact ⟨[], pieces, rfl, rfl, stream.symm⟩
  | more look goesOn others ih =>
      cases pieces with
      | nil =>
          obtain rfl : _ = [] := stream.symm
          rw [read_nil] at look
          obtain ⟨rfl, -⟩ := Prod.mk.inj (Except.ok.inj look)
          cases goesOn
      | cons piece pieces =>
          rw [List.flatMap_cons] at stream
          rw [← stream, read_piece] at look
          obtain ⟨rfl, rfl⟩ := Prod.mk.inj (Except.ok.inj look)
          obtain ⟨front, behind, rfl, rfl, left⟩ := ih rfl
          exact ⟨piece :: front, behind, rfl, rfl, left⟩

end EditorBridge.Rpc.Frame
