import EditorBridge.Proofs.Rpc.Stream
import EditorBridge.Proofs.Text.Blank

/-!
# What may stand between frames

Blank lines and frames without a body are `Filler`s: wherever a frame could start in a stream, they
are found one by one and nothing else is lost (`read_filler`). A stream is `Padded` if fillers have
been put in where one look at it ended and the next one starts. A look depends on nothing behind it
(`read_front`), unless it ended with the stream in a blank line that no line feed ends; then what is
put in goes on with this line.
-/

namespace EditorBridge

namespace Rpc

/-- The message that one look at a stream finds, if it finds one. -/
def FrameRead.message? : FrameRead → Option Json
  | message body => some body
  | _ => none

namespace Frame

/-! ### Lines -/

theorem takeLine_append (s : List UInt8) : (takeLine s).1 ++ (takeLine s).2 = s := by
  induction s with
  | nil => rfl
  | cons b s ih =>
      rw [takeLine]
      split
      · rfl
      · exact congrArg (b :: ·) ih

/-- A line ends in a line feed, or the stream ends with it. -/
theorem takeLine_cases (s : List UInt8) :
    (∃ line, 10 ∉ line ∧ (takeLine s).1 = line ++ [10]) ∨ 10 ∉ s ∧ takeLine s = (s, []) := by
  induction s with
  | nil => exact .inr ⟨nofun, rfl⟩
  | cons b s ih =>
      rw [takeLine]
      by_cases feed : b = 10
      · exact .inl ⟨[], nofun, by simp [feed]⟩
      · rw [if_neg feed]
        rcases ih with ⟨line, oneLine, form⟩ | ⟨oneLine, atEnd⟩
        · exact .inl ⟨b :: line, by simp [Ne.symm feed, oneLine], congrArg (b :: ·) form⟩
        · exact .inr ⟨by simp [Ne.symm feed, oneLine], by rw [atEnd]⟩

theorem takeLine_of_notMem {s : List UInt8} (oneLine : 10 ∉ s) (more : List UInt8) :
    takeLine (s ++ more) = (s ++ (takeLine more).1, (takeLine more).2) := by
  induction s with
  | nil => rfl
  | cons b s ih =>
      rw [List.mem_cons, not_or] at oneLine
      obtain ⟨feed, others⟩ := oneLine
      rw [List.cons_append, takeLine, if_neg (Ne.symm feed), ih others]
      rfl

/-- Blank bytes in front of a line leave its text as it is. -/
theorem headerText_append {s : List UInt8} (blank : headerText s = []) (more : List UInt8) :
    headerText (s ++ more) = headerText more := by
  have chars := Text.trim_eq_nil_iff.mp blank
  have whole : '\uFFFD' ∉ Text.Utf8.decodeLossy s := fun inside =>
    absurd (chars _ inside) (by decide)
  rw [headerText, Text.Utf8.decodeLossy_append whole, Text.trim_append_of_blank chars]
  rfl

theorem readHeaders_of_ne_nil {announced : Option Nat} {s : List UInt8} (filled : s ≠ []) :
    readHeaders announced s =
      if (headerText (takeLine s).1).isEmpty then
        .ok ((announced.map Headers.body).getD .none, (takeLine s).2)
      else
        match afterPrefix? lengthHeader (headerText (takeLine s).1) with
        | some value =>
            match length? value with
            | some length => readHeaders (some length) (takeLine s).2
            | none => .error (.invalidLength (String.ofList value))
        | none => readHeaders (some (announced.getD 0)) (takeLine s).2 := by
  cases s with
  | nil => exact absurd rfl filled
  | cons b bytes => exact readHeaders.eq_def announced (b :: bytes)

/-- A blank line that no line feed ends goes on with what follows. -/
theorem readHeaders_open {announced : Option Nat} {s more : List UInt8} (oneLine : 10 ∉ s)
    (blank : headerText s = []) (filled : more ≠ []) :
    readHeaders announced (s ++ more) = readHeaders announced more := by
  rw [readHeaders_of_ne_nil (List.append_ne_nil_of_right_ne_nil s filled),
    readHeaders_of_ne_nil filled, takeLine_of_notMem oneLine, headerText_append blank]

/-- A blank line ends the header lines, whatever blanks there are in it. -/
theorem readHeaders_of_blank {announced : Option Nat} {line : List UInt8} (oneLine : 10 ∉ line)
    (blank : headerText (line ++ [10]) = []) (rest : List UInt8) :
    readHeaders announced (line ++ 10 :: rest) =
      .ok ((announced.map Headers.body).getD .none, rest) := by
  rw [readHeaders_of_ne_nil (by simp), takeLine_line rest oneLine, blank]
  rfl

/-! ### Looks -/

/-- How bytes at the front of a stream are read as header lines and the blank line behind them. It
does not depend on what follows, unless the blank line is not ended by a line feed. -/
def Front (announced : Option Nat) (front : List UInt8) (headers : Headers)
    (rest : List UInt8) : Prop :=
  (∀ more, readHeaders announced (front ++ more) = .ok (headers, more)) ∨
    rest = [] ∧ ∃ last, headers = (last.map Headers.body).getD .none ∧
      ∀ more ≠ [], readHeaders announced (front ++ more) = readHeaders last more

theorem Front.line {announced next : Option Nat} {line front rest : List UInt8}
    {headers : Headers}
    (one : ∀ more, readHeaders announced (line ++ 10 :: more) = readHeaders next more)
    (others : Front next front headers rest) :
    Front announced (line ++ 10 :: front) headers rest := by
  have shift (more : List UInt8) : readHeaders announced (line ++ 10 :: front ++ more) =
      readHeaders next (front ++ more) := by
    rw [List.append_assoc, List.cons_append, one]
  rcases others with whole | ⟨atEnd, last, same, goesOn⟩
  · exact .inl fun more => (shift more).trans (whole more)
  · exact .inr ⟨atEnd, last, same, fun more filled => (shift more).trans (goesOn more filled)⟩

theorem front_of_readHeaders {announced : Option Nat} {s rest : List UInt8} {headers : Headers}
    (once : readHeaders announced s = .ok (headers, rest)) (inside : headers ≠ .finished) :
    ∃ front, s = front ++ rest ∧ Front announced front headers rest := by
  -- A line that is not blank is not the last one, or the stream would end in the header lines.
  have nextLine {announced : Option Nat} {n : Nat} {s : List UInt8}
      (found : readHeaders (some n) (takeLine s).2 = .ok (headers, rest))
      (ih : ∃ front, (takeLine s).2 = front ++ rest ∧ Front (some n) front headers rest)
      (one : ∀ line, 10 ∉ line → (takeLine s).1 = line ++ [10] →
        ∀ more, readHeaders announced (line ++ 10 :: more) = readHeaders (some n) more) :
      ∃ front, s = front ++ rest ∧ Front announced front headers rest := by
    rcases takeLine_cases s with ⟨line, oneLine, form⟩ | ⟨-, atEnd⟩
    · obtain ⟨front, split, others⟩ := ih
      refine ⟨line ++ 10 :: front, ?_, others.line (one line oneLine form)⟩
      have whole := takeLine_append s
      rw [form, split] at whole
      simpa using whole.symm
    · rw [atEnd, readHeaders] at found
      cases found
  fun_induction readHeaders announced s with
  | case1 | case5 => cases once
  | case2 =>
      obtain ⟨rfl, -⟩ := Prod.mk.inj (Except.ok.inj once)
      exact absurd rfl inside
  | case3 announced b bytes line after blank =>
      obtain ⟨rfl, rfl⟩ := Prod.mk.inj (Except.ok.inj once)
      have blank : headerText (takeLine (b :: bytes)).1 = [] := List.isEmpty_iff.mp blank
      refine ⟨_, (takeLine_append (b :: bytes)).symm, ?_⟩
      rcases takeLine_cases (b :: bytes) with ⟨text, oneLine, form⟩ | ⟨oneLine, atEnd⟩
      · rw [form] at blank ⊢
        refine .inl fun more => ?_
        rw [List.append_assoc, List.singleton_append]
        exact readHeaders_of_blank oneLine blank more
      · rw [atEnd] at blank
        refine .inr ⟨congrArg Prod.snd atEnd, announced, rfl, ?_⟩
        rw [atEnd]
        exact fun more filled => readHeaders_open oneLine blank filled
  | case4 announced b bytes line after filled value found length isLength ih =>
      refine nextLine once (ih once) fun text oneLine form more => ?_
      rw [readHeaders_of_ne_nil (by simp), takeLine_line more oneLine, ← form, if_neg filled, found]
      dsimp only
      rw [isLength]
  | case6 announced b bytes line after filled notFound ih =>
      refine nextLine once (ih once) fun text oneLine form more => ?_
      rw [readHeaders_of_ne_nil (by simp), takeLine_line more oneLine, ← form, if_neg filled,
        notFound]

theorem read_of_none {s rest : List UInt8} (headers : readHeaders none s = .ok (.none, rest)) :
    read s = .ok (.idle, rest) := by
  rw [read, headers]

theorem read_of_zero {s rest : List UInt8} (headers : readHeaders none s = .ok (.body 0, rest)) :
    read s = .ok (.empty, rest) := by
  rw [read, headers]
  rfl

theorem read_of_body {s rest : List UInt8} {length : Nat} (filled : length ≠ 0)
    (headers : readHeaders none s = .ok (.body length, rest)) :
    read s =
      if rest.length < length then .error .endedInBody
      else
        match bodyValue? (rest.take length) with
        | some v => .ok (.message v, rest.drop length)
        | none => .error .malformed := by
  rw [read, headers]
  cases length with
  | zero => exact absurd rfl filled
  | succ n => rfl

/-- What is left when a stream ends in a blank line that no line feed ends: what follows goes on
with header lines that have announced no body. -/
def Dangling (front : List UInt8) : Prop :=
  ∃ last : Option Nat, last.getD 0 = 0 ∧
    ∀ more ≠ [], readHeaders none (front ++ more) = readHeaders last more

/-- A look that finds no body. -/
theorem read_front_of_quiet {s rest : List UInt8} {headers : Headers} {found : FrameRead}
    (quiet : headers = .none ∨ headers = .body 0)
    (looks : ∀ s rest, readHeaders none s = .ok (headers, rest) → read s = .ok (found, rest))
    (once : readHeaders none s = .ok (headers, rest)) :
    ∃ front, s = front ++ rest ∧
      ((∀ more, read (front ++ more) = .ok (found, more)) ∨ rest = [] ∧ Dangling front) := by
  have inside : headers ≠ .finished := by
    rintro rfl
    rcases quiet with same | same <;> cases same
  obtain ⟨front, split, whole | ⟨atEnd, last, same, further⟩⟩ := front_of_readHeaders once inside
  · exact ⟨front, split, .inl fun more => looks _ _ (whole more)⟩
  · refine ⟨front, split, .inr ⟨atEnd, last, ?_, further⟩⟩
    cases last with
    | none => rfl
    | some n =>
        rcases quiet with rfl | rfl
        · cases same
        · cases same
          rfl

/-- A look that finds a body of some length. -/
theorem read_front_of_body {s behind rest : List UInt8} {length : Nat} {found : FrameRead}
    (filled : length ≠ 0) (headers : readHeaders none s = .ok (.body length, behind))
    (once : read s = .ok (found, rest)) :
    ∃ front, s = front ++ rest ∧ ∀ more, read (front ++ more) = .ok (found, more) := by
  rw [read_of_body filled headers] at once
  split at once
  · cases once
  · next long =>
      split at once
      · next v isValue =>
          obtain ⟨rfl, rfl⟩ := Prod.mk.inj (Except.ok.inj once)
          obtain ⟨front, split, whole | ⟨rfl, -⟩⟩ := front_of_readHeaders headers nofun
          · have size : (behind.take length).length = length := by
              rw [List.length_take]
              omega
            refine ⟨front ++ behind.take length, ?_, fun more => ?_⟩
            · rw [List.append_assoc, List.take_append_drop, split]
            · have longer : ¬ (behind.take length ++ more).length < length := by
                rw [List.length_append, size]
                omega
              rw [List.append_assoc, read_of_body filled (whole _), if_neg longer,
                List.take_left' size, List.drop_left' size, isValue]
          · exact absurd (Nat.pos_of_ne_zero filled) long
      · cases once

/-- One look at a stream and what is before its rest. The look does not depend on the rest, unless
the stream ends there in a blank line that no line feed ends. -/
theorem read_front {s rest : List UInt8} {found : FrameRead} (once : read s = .ok (found, rest))
    (goesOn : found.isClosed = false) :
    ∃ front, s = front ++ rest ∧ ((∀ more, read (front ++ more) = .ok (found, more)) ∨
      rest = [] ∧ found.message? = none ∧ Dangling front) := by
  rcases headers : readHeaders none s with e | ⟨length | _ | _, behind⟩
  · rw [read, headers] at once
    cases once
  · by_cases hollow : length = 0
    · subst hollow
      rw [read_of_zero headers] at once
      obtain ⟨rfl, rfl⟩ := Prod.mk.inj (Except.ok.inj once)
      obtain ⟨front, split, reads⟩ :=
        read_front_of_quiet (.inr rfl) (fun _ _ => read_of_zero) headers
      exact ⟨front, split, reads.imp_right fun open_ => ⟨open_.1, rfl, open_.2⟩⟩
    · obtain ⟨front, split, whole⟩ := read_front_of_body hollow headers once
      exact ⟨front, split, .inl whole⟩
  · rw [read_of_none headers] at once
    obtain ⟨rfl, rfl⟩ := Prod.mk.inj (Except.ok.inj once)
    obtain ⟨front, split, reads⟩ :=
      read_front_of_quiet (.inl rfl) (fun _ _ => read_of_none) headers
    exact ⟨front, split, reads.imp_right fun open_ => ⟨open_.1, rfl, open_.2⟩⟩
  · rw [read, headers] at once
    obtain ⟨rfl, -⟩ := Prod.mk.inj (Except.ok.inj once)
    cases goesOn

theorem read_nil : read [] = .ok (.closed, []) := by
  rw [read, readHeaders]
  rfl

/-- What some looks at a stream find, one after the other, and the rest of it. -/
inductive Looks : List UInt8 → List FrameRead → List UInt8 → Prop where
  | none (s : List UInt8) : Looks s [] s
  | more {s rest boundary : List UInt8} {found : FrameRead} {others : List FrameRead}
      (look : read s = .ok (found, rest)) (goesOn : found.isClosed = false)
      (looks : Looks rest others boundary) : Looks s (found :: others) boundary

theorem Looks.concat {s boundary rest : List UInt8} {founds : List FrameRead} {found : FrameRead}
    (looks : Looks s founds boundary) (look : read boundary = .ok (found, rest))
    (goesOn : found.isClosed = false) : Looks s (founds ++ [found]) rest := by
  induction looks with
  | none s => exact .more look goesOn (.none rest)
  | more first open_ others ih => exact .more first open_ (ih look)

/-! ### Fillers -/

/-- A blank line, without the line feed that ends it. -/
structure EmptyLine where
  content : List UInt8
  oneLine : 10 ∉ content
  blank : headerText (content ++ [10]) = []

/-- A header line, without the line feed that ends it, and the length that it announces, if it says
something about the length. -/
structure AnyHeaderLine where
  content : List UInt8
  announces : Option Nat
  oneLine : 10 ∉ content
  filled : headerText (content ++ [10]) ≠ []
  meaning : (afterPrefix? lengthHeader (headerText (content ++ [10]))).map length? =
    announces.map some

/-- What is announced behind a header line. -/
def AnyHeaderLine.follow (announced : Option Nat) (line : AnyHeaderLine) : Option Nat :=
  some ((line.announces.or announced).getD 0)

/-- A frame without a body, made of header lines and the blank line behind them: the last length
that its header lines announce is zero, or they announce none. -/
structure HollowFrame where
  lines : List AnyHeaderLine
  stop : EmptyLine
  hollow : lines.foldl AnyHeaderLine.follow none = some 0

/-- What may stand where a frame could start. -/
inductive Filler where
  | blankLine (line : EmptyLine)
  | hollowFrame (frame : HollowFrame)

/-- The bytes of a filler. -/
def Filler.bytes : Filler → List UInt8
  | blankLine line => line.content ++ [10]
  | hollowFrame frame =>
      frame.lines.flatMap (fun line => line.content ++ [10]) ++ (frame.stop.content ++ [10])

theorem readHeaders_anyHeaderLine (announced : Option Nat) (line : AnyHeaderLine)
    (rest : List UInt8) :
    readHeaders announced (line.content ++ [10] ++ rest) =
      readHeaders (line.follow announced) rest := by
  rw [List.append_assoc, List.singleton_append, readHeaders_line line.oneLine line.filled]
  have meaning := line.meaning
  rw [AnyHeaderLine.follow]
  cases found : afterPrefix? lengthHeader (headerText (line.content ++ [10])) with
  | none =>
      rw [found] at meaning
      rw [Option.map_eq_none_iff.mp meaning.symm]
      rfl
  | some value =>
      rw [found] at meaning
      obtain ⟨n, announces, same⟩ := Option.map_eq_some_iff.mp meaning.symm
      rw [announces]
      dsimp only
      rw [← same]
      rfl

theorem readHeaders_anyHeaderLines (announced : Option Nat) (lines : List AnyHeaderLine)
    (rest : List UInt8) :
    readHeaders announced (lines.flatMap (fun line => line.content ++ [10]) ++ rest) =
      readHeaders (lines.foldl AnyHeaderLine.follow announced) rest := by
  induction lines generalizing announced with
  | nil => rfl
  | cons line lines ih =>
      rw [List.flatMap_cons, List.append_assoc, readHeaders_anyHeaderLine, ih]
      rfl

/-- What is put in where a frame could start, or behind header lines that have announced no body, is
found in one look, and it is no message. -/
theorem readHeaders_filler {last : Option Nat} (nothing : last.getD 0 = 0) (filler : Filler)
    (rest : List UInt8) :
    readHeaders last (filler.bytes ++ rest) = .ok (.none, rest) ∨
      readHeaders last (filler.bytes ++ rest) = .ok (.body 0, rest) := by
  have end_ (announced : Option Nat) (line : EmptyLine) :
      readHeaders announced (line.content ++ [10] ++ rest) =
        .ok ((announced.map Headers.body).getD .none, rest) := by
    rw [List.append_assoc, List.singleton_append]
    exact readHeaders_of_blank line.oneLine line.blank rest
  cases filler with
  | blankLine line =>
      rw [Filler.bytes, end_]
      cases last with
      | none => exact .inl rfl
      | some n =>
          obtain rfl : n = 0 := nothing
          exact .inr rfl
  | hollowFrame frame =>
      have same : frame.lines.foldl AnyHeaderLine.follow last = some 0 := by
        have hollow := frame.hollow
        cases form : frame.lines with
        | nil => rw [form] at hollow; cases hollow
        | cons line lines =>
            rw [form, List.foldl_cons] at hollow
            rw [List.foldl_cons, ← hollow]
            refine congrArg (lines.foldl AnyHeaderLine.follow) ?_
            rw [AnyHeaderLine.follow, AnyHeaderLine.follow]
            cases line.announces with
            | none => exact congrArg some nothing
            | some n => rfl
      rw [Filler.bytes, List.append_assoc, readHeaders_anyHeaderLines, same, end_]
      exact .inr rfl

theorem read_filler {front rest : List UInt8} {last : Option Nat} (nothing : last.getD 0 = 0)
    (filler : Filler)
    (behind : ∀ more ≠ [], readHeaders none (front ++ more) = readHeaders last more) :
    ∃ found : FrameRead, found.isClosed = false ∧ found.message? = none ∧
      read (front ++ (filler.bytes ++ rest)) = .ok (found, rest) := by
  have filled : filler.bytes ++ rest ≠ [] := by
    cases filler <;> simp [Filler.bytes]
  rcases readHeaders_filler nothing filler rest with found | found
  · exact ⟨.idle, rfl, rfl, read_of_none ((behind _ filled).trans found)⟩
  · exact ⟨.empty, rfl, rfl, read_of_zero ((behind _ filled).trans found)⟩

/-- Whether the second stream is the first one with fillers put in wherever a look ends before
anything is wrong with the stream, and before the first look. -/
inductive Padded : List UInt8 → List UInt8 → Prop where
  | same (s : List UInt8) : Padded s s
  | fill (filler : Filler) {s t : List UInt8} (others : Padded s t) :
      Padded s (filler.bytes ++ t)
  | skip {front rest t : List UInt8} {found : FrameRead}
      (look : read (front ++ rest) = .ok (found, rest)) (goesOn : found.isClosed = false)
      (others : Padded rest t) : Padded (front ++ rest) (front ++ t)

end Frame

end Rpc

end EditorBridge
