import EditorBridge.Channel.Reader
import EditorBridge.Proofs.Json.RoundTrip
import EditorBridge.Proofs.Text.Utf8

/-!
# Reading back a stream of frames

Whoever reads a stream from its start finds the values that were encoded into it, in their order and
nothing else (`readAll_stream`). Writers differ in what they put around a frame: blank lines in
front of it, and header lines beside the one with the length. A `Parcel` is a frame with such lines,
and a stream is one parcel after the other. The proof goes along the lines of a parcel: each of them
takes the reader from what is announced so far to what is announced then, and the body is cut off
where its length in bytes says.
-/

namespace EditorBridge.Rpc

open Text (isBlank trim trimStart trimEnd)

/-- Whether the stream is over. -/
def FrameRead.isClosed : FrameRead → Bool
  | closed => true
  | _ => false

namespace Frame

/-- What one look after the other finds, up to the end of the stream. -/
def readAll (s : List UInt8) : Except FramingError (List FrameRead) :=
  match _h : read s with
  | .error e => .error e
  | .ok (found, rest) =>
      if _over : found.isClosed then .ok [found] else (readAll rest).map (found :: ·)
termination_by s.length
decreasing_by
  exact Channel.Reader.length_read_lt _h fun same => by simp [same, FrameRead.isClosed] at _over

theorem readAll_of_read {s rest : List UInt8} {found : FrameRead}
    (once : read s = .ok (found, rest)) (goesOn : found.isClosed = false) :
    readAll s = (readAll rest).map (found :: ·) := by
  rw [readAll]
  split
  · next h => rw [once] at h; cases h
  · next h =>
      rw [once] at h
      obtain ⟨rfl, rfl⟩ := Prod.mk.inj (Except.ok.inj h)
      simp [goesOn]

/-! ### Parcels -/

/-- A value that comes back from a frame as it was: it fits a frame, its numbers are integers of 64
bits, it does not nest too deep, and its objects are in normal form. -/
structure Sendable (v : Json) : Prop where
  fits : Text.Utf8.byteLength v.chars ≤ maxLength
  exact : v.isExact Json.maxDepth = true
  normal : v.canonical = v

/-- A blank line, with a carriage return in it or not. -/
inductive BlankLine where
  | bare
  | withReturn
  deriving DecidableEq, Repr

/-- The bytes of a blank line. -/
def BlankLine.bytes : BlankLine → List UInt8
  | bare => [10]
  | withReturn => [13, 10]

/-- A header line that says nothing about the length, without the line feed that ends it: it is not
blank, and without the blanks around it it does not start as the line with the length does. -/
structure HeaderLine where
  content : List UInt8
  oneLine : 10 ∉ content
  filled : headerText (content ++ [10]) ≠ []
  other : ¬ lengthHeader <+: headerText (content ++ [10])

/-- The bytes of a header line. -/
def HeaderLine.bytes (line : HeaderLine) : List UInt8 :=
  line.content ++ [10]

/-- A frame as it may stand in a stream: the blank lines before it, and the value in it, with the
header lines before and after the one with the length. -/
structure Parcel where
  blanks : List BlankLine
  before : List HeaderLine
  value : Json
  after : List HeaderLine
  sendable : Sendable value

/-- The bytes of a parcel: those of its frame, with header lines around the first line of it. -/
def Parcel.bytes (p : Parcel) : List UInt8 :=
  p.blanks.flatMap BlankLine.bytes ++ (p.before.flatMap HeaderLine.bytes ++
    ((takeLine (encodeBytes p.value)).1 ++ (p.after.flatMap HeaderLine.bytes ++
      (takeLine (encodeBytes p.value)).2)))

/-- What is found in a parcel. -/
def Parcel.found (p : Parcel) : List FrameRead :=
  p.blanks.map (fun _ => .idle) ++ [.message p.value]

/-! ### Lines -/

theorem takeLine_line {line : List UInt8} (rest : List UInt8) (oneLine : 10 ∉ line) :
    takeLine (line ++ 10 :: rest) = (line ++ [10], rest) := by
  induction line with
  | nil => simp [takeLine]
  | cons b line ih =>
      simp only [List.mem_cons, not_or] at oneLine
      rw [List.cons_append, takeLine, if_neg (Ne.symm oneLine.1), ih oneLine.2]
      rfl

theorem afterPrefix?_append (expected s : List Char) :
    afterPrefix? expected (expected ++ s) = some s := by
  induction expected with
  | nil => simp [afterPrefix?]
  | cons c expected ih => simp [afterPrefix?, ih]

theorem afterPrefix?_eq_none {expected s : List Char} (different : ¬ expected <+: s) :
    afterPrefix? expected s = none := by
  induction expected generalizing s with
  | nil => exact absurd (List.nil_prefix) different
  | cons c expected ih =>
      cases s with
      | nil => rfl
      | cons d s =>
          rw [afterPrefix?]
          split
          · next same =>
              refine ih fun isPrefix => different ?_
              rw [same]
              exact List.cons_prefix_cons.mpr ⟨rfl, isPrefix⟩
          · rfl

/-- One line that is not blank, at the front of a stream. -/
theorem readHeaders_line {announced : Option Nat} {line rest : List UInt8} (oneLine : 10 ∉ line)
    (filled : headerText (line ++ [10]) ≠ []) :
    readHeaders announced (line ++ 10 :: rest) =
      match afterPrefix? lengthHeader (headerText (line ++ [10])) with
      | some value =>
          match length? value with
          | some length => readHeaders (some length) rest
          | none => .error (.invalidLength (String.ofList value))
      | none => readHeaders (some (announced.getD 0)) rest := by
  have taken := takeLine_line rest oneLine
  cases form : line ++ 10 :: rest with
  | nil => simp at form
  | cons b bytes =>
      rw [form] at taken
      have notEmpty : (headerText (line ++ [10])).isEmpty = false :=
        List.isEmpty_eq_false_iff.mpr filled
      have unfolded := readHeaders.eq_def announced (b :: bytes)
      simp only [taken, notEmpty, Bool.false_eq_true, if_false] at unfolded
      exact unfolded

/-- A blank line ends the header lines. -/
theorem readHeaders_blank {announced : Option Nat} (blank : BlankLine) (rest : List UInt8) :
    readHeaders announced (blank.bytes ++ rest) =
      .ok ((announced.map Headers.body).getD .none, rest) := by
  have bare : headerText [10] = [] := by
    have text : headerText (Text.Utf8.encode ['\n']) = [] := by
      rw [headerText, Text.Utf8.decodeLossy_encode]
      decide
    exact text
  have withReturn : headerText [13, 10] = [] := by
    have text : headerText (Text.Utf8.encode ['\r', '\n']) = [] := by
      rw [headerText, Text.Utf8.decodeLossy_encode]
      decide
    exact text
  cases blank with
  | bare =>
      have taken : takeLine (10 :: rest) = ([10], rest) :=
        @takeLine_line [] rest (by decide)
      rw [BlankLine.bytes, List.singleton_append, readHeaders]
      simp only [taken, bare, List.isEmpty_nil, if_true]
  | withReturn =>
      have taken : takeLine (13 :: 10 :: rest) = ([13, 10], rest) :=
        @takeLine_line [13] rest (by decide)
      rw [BlankLine.bytes, List.cons_append, List.singleton_append, readHeaders]
      simp only [taken, withReturn, List.isEmpty_nil, if_true]

/-- Header lines that say nothing about the length leave what is announced as it is. -/
theorem readHeaders_lines (length : Nat) (lines : List HeaderLine) (rest : List UInt8) :
    readHeaders (some length) (lines.flatMap HeaderLine.bytes ++ rest) =
      readHeaders (some length) rest := by
  induction lines with
  | nil => rfl
  | cons line lines ih =>
      rw [List.flatMap_cons, HeaderLine.bytes, List.append_assoc, List.append_assoc,
        List.singleton_append, readHeaders_line line.oneLine line.filled,
        afterPrefix?_eq_none line.other]
      exact ih

/-! ### The line with the length -/

theorem isBlank_of_isDigit {c : Char} (digit : Numeral.isDigit c = true) : isBlank c = false := by
  simp only [Numeral.isDigit, Bool.and_eq_true, decide_eq_true_eq, Char.le_def,
    UInt32.le_iff_toNat_le] at digit
  have least : 48 ≤ c.toNat := digit.1
  have most : c.toNat ≤ 57 := digit.2
  simp only [isBlank, Bool.or_eq_false_iff, Bool.and_eq_false_iff, decide_eq_false_iff_not,
    beq_eq_false_iff_ne]
  omega

theorem trim_digits (n : Nat) : trim (Numeral.digits n) = Numeral.digits n := by
  have solid : ∀ c ∈ Numeral.digits n, ¬ isBlank c = true := by
    intro c inside blank
    have digit := List.all_eq_true.mp (Numeral.all_isDigit_digits n) c inside
    exact absurd blank (by rw [isBlank_of_isDigit digit]; decide)
  have same : ∀ s : List Char, (∀ c ∈ s, ¬ isBlank c = true) → s.dropWhile isBlank = s := by
    intro s clean
    cases s with
    | nil => rfl
    | cons c s => exact List.dropWhile_cons_of_neg (clean c (by simp))
  rw [trim, trimStart, trimEnd, same _ solid, same _ (by simpa using solid), List.reverse_reverse]

theorem length?_digits {n : Nat} (fits : n ≤ maxLength) : length? (Numeral.digits n) = some n := by
  simp [length?, trim_digits, Numeral.natural?_digits, fits]

/-- The text of the header line with a length. -/
def lengthText (n : Nat) : List Char :=
  lengthHeader ++ Numeral.digits n

theorem trim_lengthText (n : Nat) : trim (lengthText n ++ ['\r', '\n']) = lengthText n := by
  obtain ⟨front, last, form⟩ : ∃ front last, Numeral.digits n = front ++ [last] :=
    ⟨_, _, (List.dropLast_concat_getLast (Numeral.digits_ne_nil n)).symm⟩
  have solid : isBlank last = false := by
    refine isBlank_of_isDigit (List.all_eq_true.mp (Numeral.all_isDigit_digits n) last ?_)
    simp [form]
  have start : trimStart (lengthText n ++ ['\r', '\n']) = lengthText n ++ ['\r', '\n'] :=
    Text.trimStart_of_head 'C' _ (by decide)
  have ending : trimEnd (lengthText n ++ ['\r', '\n']) = trimEnd (lengthText n) := by
    simp [trimEnd, show isBlank '\r' = true by decide, show isBlank '\n' = true by decide]
  rw [trim, start, ending, lengthText, form, ← List.append_assoc, Text.trimEnd_of_last _ _ solid]

/-- The first line of a frame without its line feed. -/
def lengthLine (v : Json) : List UInt8 :=
  Text.Utf8.encode (lengthText (Text.Utf8.byteLength v.chars) ++ ['\r'])

theorem encodeBytes_eq (v : Json) :
    encodeBytes v = lengthLine v ++ 10 :: (BlankLine.withReturn.bytes ++
      Text.Utf8.encode v.chars) := by
  have split : encode v = (lengthText (Text.Utf8.byteLength v.chars) ++ ['\r']) ++
      (['\n', '\r', '\n'] ++ v.chars) := by
    simp [encode, ofText, lengthText]
  have feeds : Text.Utf8.encode ['\n', '\r', '\n'] = 10 :: BlankLine.withReturn.bytes := rfl
  rw [encodeBytes, split, Text.Utf8.encode_append, Text.Utf8.encode_append _ v.chars, feeds,
    lengthLine]
  rfl

theorem lineFeed_notMem_lengthLine (v : Json) : 10 ∉ lengthLine v := by
  refine Text.Utf8.lineFeed_notMem_encode ?_
  simp only [lengthText, List.mem_append, not_or]
  refine ⟨⟨by decide, fun inside => ?_⟩, by decide⟩
  exact absurd (List.all_eq_true.mp (Numeral.all_isDigit_digits _) _ inside) (by decide)

theorem headerText_lengthLine (v : Json) :
    headerText (lengthLine v ++ [10]) = lengthText (Text.Utf8.byteLength v.chars) := by
  have bytes : lengthLine v ++ [10] =
      Text.Utf8.encode (lengthText (Text.Utf8.byteLength v.chars) ++ ['\r', '\n']) := by
    rw [lengthLine, show ([10] : List UInt8) = Text.Utf8.encode ['\n'] from rfl,
      ← Text.Utf8.encode_append, List.append_assoc]
    rfl
  rw [headerText, bytes, Text.Utf8.decodeLossy_encode, trim_lengthText]

/-- The first line of a frame announces the length of its body, whatever was announced before. -/
theorem readHeaders_lengthLine {v : Json} (announced : Option Nat) (rest : List UInt8)
    (fits : Text.Utf8.byteLength v.chars ≤ maxLength) :
    readHeaders announced (lengthLine v ++ 10 :: rest) =
      readHeaders (some (Text.Utf8.byteLength v.chars)) rest := by
  have filled : headerText (lengthLine v ++ [10]) ≠ [] := by
    rw [headerText_lengthLine, lengthText]
    exact List.append_ne_nil_of_left_ne_nil (by decide) _
  have announces : afterPrefix? lengthHeader (headerText (lengthLine v ++ [10])) =
      some (Numeral.digits (Text.Utf8.byteLength v.chars)) := by
    rw [headerText_lengthLine, lengthText, afterPrefix?_append]
  rw [readHeaders_line (lineFeed_notMem_lengthLine v) filled, announces]
  simp only [length?_digits fits]

/-! ### One parcel -/

theorem read_blank (blank : BlankLine) (rest : List UInt8) :
    read (blank.bytes ++ rest) = .ok (.idle, rest) := by
  rw [read, readHeaders_blank]
  rfl

/-- The header lines of a parcel announce the length of its body. -/
theorem readHeaders_parcel (before after : List HeaderLine) {v : Json} (rest : List UInt8)
    (fits : Text.Utf8.byteLength v.chars ≤ maxLength) :
    readHeaders none (before.flatMap HeaderLine.bytes ++ (lengthLine v ++
      10 :: (after.flatMap HeaderLine.bytes ++ (BlankLine.withReturn.bytes ++ rest)))) =
      .ok (.body (Text.Utf8.byteLength v.chars), rest) := by
  have behind : ∀ announced, readHeaders announced (lengthLine v ++
      10 :: (after.flatMap HeaderLine.bytes ++ (BlankLine.withReturn.bytes ++ rest))) =
      .ok (.body (Text.Utf8.byteLength v.chars), rest) := by
    intro announced
    rw [readHeaders_lengthLine _ _ fits, readHeaders_lines, readHeaders_blank]
    rfl
  cases before with
  | nil => exact behind none
  | cons line before =>
      rw [List.flatMap_cons, HeaderLine.bytes, List.append_assoc, List.append_assoc,
        List.singleton_append, readHeaders_line line.oneLine line.filled,
        afterPrefix?_eq_none line.other]
      exact (readHeaders_lines 0 before _).trans (behind (some 0))

theorem bodyValue?_encode {v : Json} (sendable : Sendable v) :
    bodyValue? (Text.Utf8.encode v.chars) = some v := by
  rw [bodyValue?, Text.Utf8.decode?_encode, Option.bind_some,
    Json.ofChars?_chars sendable.exact, sendable.normal]

theorem byteLength_chars_pos {v : Json} (exact : v.isExact Json.maxDepth = true) :
    0 < Text.Utf8.byteLength v.chars := by
  obtain ⟨c, tail, form, -⟩ := Json.Source.chars_form exact
  rw [form, Text.byteLength_cons]
  exact Nat.add_pos_left c.utf8Size_pos _

/-- The body is cut off where it ends, and is the text of the value. -/
theorem read_body {s rest : List UInt8} {v : Json} (sendable : Sendable v)
    (headers : readHeaders none s =
      .ok (.body (Text.Utf8.byteLength v.chars), Text.Utf8.encode v.chars ++ rest)) :
    read s = .ok (.message v, rest) := by
  have positive := byteLength_chars_pos sendable.exact
  have size := Text.Utf8.length_encode v.chars
  have body : (Text.Utf8.encode v.chars ++ rest).take (Text.Utf8.byteLength v.chars) =
      Text.Utf8.encode v.chars := List.take_left' size
  have behind : (Text.Utf8.encode v.chars ++ rest).drop (Text.Utf8.byteLength v.chars) = rest :=
    List.drop_left' size
  have whole : ¬ (Text.Utf8.encode v.chars ++ rest).length < Text.Utf8.byteLength v.chars := by
    rw [List.length_append, size]
    omega
  unfold read
  rw [headers]
  split
  · next h => cases h
  · next h => cases h
  · next h => cases h
  · next h =>
      have none := congrArg Prod.fst (Except.ok.inj h)
      simp only [Headers.body.injEq] at none
      omega
  · next h =>
      obtain ⟨same, rfl⟩ := Prod.mk.inj (Except.ok.inj h)
      obtain rfl := Headers.body.inj same
      rw [if_neg whole, body, behind, bodyValue?_encode sendable]

/-- The blank lines before a frame are found one by one. -/
theorem readAll_blanks (blanks : List BlankLine) (rest : List UInt8) :
    readAll (blanks.flatMap BlankLine.bytes ++ rest) =
      (readAll rest).map (blanks.map (fun _ => .idle) ++ ·) := by
  induction blanks with
  | nil =>
      rw [List.flatMap_nil, List.nil_append]
      cases readAll rest <;> rfl
  | cons blank blanks ih =>
      rw [List.flatMap_cons, List.append_assoc, readAll_of_read (read_blank blank _) rfl, ih]
      cases readAll rest <;> rfl

theorem readAll_parcel (p : Parcel) (rest : List UInt8) :
    readAll (p.bytes ++ rest) = (readAll rest).map (p.found ++ ·) := by
  have lines : takeLine (encodeBytes p.value) =
      (lengthLine p.value ++ [10], BlankLine.withReturn.bytes ++
        Text.Utf8.encode p.value.chars) := by
    rw [encodeBytes_eq, takeLine_line _ (lineFeed_notMem_lengthLine p.value)]
  have headers := readHeaders_parcel p.before p.after (Text.Utf8.encode p.value.chars ++ rest)
    p.sendable.fits
  have message := readAll_of_read (read_body p.sendable headers) rfl
  simp only [Parcel.bytes, lines, List.append_assoc, List.cons_append, List.nil_append,
    readAll_blanks]
  rw [message, Parcel.found]
  cases readAll rest <;> simp [Except.map]

/-! ### Whole streams -/

/-- Reading undoes writing: in a stream of parcels every blank line between them is found and every
value is found as it was written, each in its place, and then the stream is over. -/
theorem readAll_stream (parcels : List Parcel) :
    readAll (parcels.flatMap Parcel.bytes) =
      .ok (parcels.flatMap Parcel.found ++ [.closed]) := by
  induction parcels with
  | nil =>
      have atEnd : read [] = .ok (.closed, []) := by simp [read, readHeaders]
      rw [List.flatMap_nil, readAll]
      split
      · next h => rw [atEnd] at h; cases h
      · next h =>
          rw [atEnd] at h
          obtain ⟨rfl, rfl⟩ := Prod.mk.inj (Except.ok.inj h)
          rfl
  | cons p parcels ih =>
      rw [List.flatMap_cons, readAll_parcel, ih, List.flatMap_cons, List.append_assoc]
      rfl

end Frame

end EditorBridge.Rpc
