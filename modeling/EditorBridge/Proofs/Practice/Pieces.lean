import EditorBridge.Practice.Stream
import EditorBridge.Proofs.Rpc.Stream

/-!
# Input in pieces

The practice server looks at the whole of what it has not taken yet whenever a piece of its input
comes, so it has to find the same in it as if all had come at once (`Running.seesThrough`). A whole
message stays whole with more input behind it, and so does a length that no memory can hold
(`cut_append`); all else that has been found may change, but only where nothing has been taken yet.
What the server does with the texts that it has cut off is done text by text, up to one that makes
it exit. The frames of the bridge are cut into their bodies.
-/

namespace EditorBridge.Practice

/-! ### Cutting -/

theorem splitHeaders?_append {s before after : List UInt8} (more : List UInt8)
    (found : splitHeaders? s = some (before, after)) :
    splitHeaders? (s ++ more) = some (before, after ++ more) := by
  induction s generalizing before after with
  | nil => cases found
  | cons b s ih =>
      unfold splitHeaders? at found
      split at found
      · obtain ⟨rfl, rfl⟩ := Prod.mk.inj (Option.some.inj found)
        rfl
      · next notHere =>
          obtain ⟨⟨first, second⟩, later, same⟩ := Option.map_eq_some_iff.mp found
          obtain ⟨rfl, rfl⟩ := Prod.mk.inj same
          have again := ih later
          rw [List.cons_append]
          unfold splitHeaders?
          split
          · next rest form =>
              -- The blank line would have to begin in `s` and end behind it.
              exfalso
              rcases s with _ | ⟨c, _ | ⟨d, _ | ⟨e, rest'⟩⟩⟩
              · cases later
              · simp [splitHeaders?] at later
              · simp [splitHeaders?] at later
              · simp only [List.cons_append, List.cons.injEq] at form
                obtain ⟨rfl, rfl, rfl, -⟩ := form
                exact notHere rest' rfl rfl
          · rw [again]
            rfl

/-- What the first message of an input is, or that its length is too great, stays so with more
input behind it. -/
theorem cut_append {input : List UInt8} (more : List UInt8) :
    (∀ text rest, cut input = .message text rest →
      cut (input ++ more) = .message text (rest ++ more)) ∧
    (cut input = .overflow → cut (input ++ more) = .overflow) := by
  cases split : splitHeaders? input with
  | none => simp [cut, split]
  | some found =>
      obtain ⟨headers, after⟩ := found
      have later := splitHeaders?_append more split
      simp only [cut, split, later]
      cases (Text.Utf8.decode? headers).bind announced? with
      | none => simp
      | some length =>
          by_cases great : greatestLength < headers.length + 4 + length
          · simp [great]
          · by_cases short : after.length < length
            · simp [great, short]
            · have whole : ¬ (after ++ more).length < length := by
                rw [List.length_append]
                omega
              simp only [if_neg great, if_neg short, if_neg whole,
                List.take_append_of_le_length (Nat.le_of_not_lt short),
                List.drop_append_of_le_length (Nat.le_of_not_lt short)]
              cases Text.Utf8.decode? (after.take length) <;> simp

/-! ### Texts -/

/-- The texts of the messages that can be cut off an input one after the other, and what is left of
the input then. -/
def texts (input : List UInt8) : List (List Char) × List UInt8 :=
  match _h : cut input with
  | .message text rest => (text :: (texts rest).1, (texts rest).2)
  | .incomplete | .overflow => ([], input)
termination_by input.length
decreasing_by
  all_goals exact length_cut_lt _h

/-- The texts that are cut off when input comes in pieces, each behind what is left of those before
it. -/
def textsFrom (left : List UInt8) : List (List UInt8) → List (List Char) × List UInt8
  | [] => ([], left)
  | piece :: pieces =>
      let now := texts (left ++ piece)
      let later := textsFrom now.2 pieces
      (now.1 ++ later.1, later.2)

theorem texts_of_message {input rest : List UInt8} {text : List Char}
    (found : cut input = .message text rest) :
    texts input = (text :: (texts rest).1, (texts rest).2) := by
  rw [texts]
  split
  · next form =>
      obtain ⟨rfl, rfl⟩ := Cut.message.inj (found.symm.trans form)
      rfl
  · next form => cases found.symm.trans form
  · next form => cases found.symm.trans form

theorem texts_of_not_message {input : List UInt8}
    (nothing : ∀ text rest, cut input ≠ .message text rest) : texts input = ([], input) := by
  rw [texts]
  split
  · next form => exact absurd form (nothing _ _)
  · rfl
  · rfl

/-- No message can be cut off what is left. -/
theorem cut_texts (input : List UInt8) (text : List Char) (rest : List UInt8) :
    cut (texts input).2 ≠ .message text rest := by
  fun_induction texts input with
  | case1 input first rest' found ih => exact ih
  | case2 input found => rw [found]; exact nofun
  | case3 input found => rw [found]; exact nofun

/-- More input is cut behind what is left. -/
theorem texts_append (input more : List UInt8) :
    texts (input ++ more) = ((texts input).1 ++ (texts ((texts input).2 ++ more)).1,
      (texts ((texts input).2 ++ more)).2) := by
  fun_induction texts input with
  | case1 input text rest found ih =>
      rw [texts_of_message ((cut_append more).1 text rest found), ih]
      rfl
  | case2 => rfl
  | case3 => rfl

/-- Pieces hold the texts of the whole. -/
theorem textsFrom_eq {left : List UInt8} (settled : texts left = ([], left))
    (pieces : List (List UInt8)) : textsFrom left pieces = texts (left ++ pieces.flatten) := by
  induction pieces generalizing left with
  | nil => rw [textsFrom, List.flatten_nil, List.append_nil, settled]
  | cons piece pieces ih =>
      rw [textsFrom, ih (texts_of_not_message (cut_texts _)), List.flatten_cons,
        ← List.append_assoc, texts_append (left ++ piece)]

/-! ### What the server does -/

/-- What a server does with texts one after the other, up to one that makes it exit: the server,
its acts and the code of the exit. A text that is no message is passed over. -/
def Server.obey (s : Server) : List (List Char) → Server × List Act × Option Nat
  | [] => (s, [], none)
  | text :: rest =>
      match Message.parse? text with
      | none => s.obey rest
      | some message =>
          match Running.exitIn (s.handle message).2 with
          | some code => ((s.handle message).1, (s.handle message).2, some code)
          | none =>
              let later := (s.handle message).1.obey rest
              (later.1, (s.handle message).2 ++ later.2.1, later.2.2)

/-- What a server does with an input: it obeys the texts, and dies if the length that comes then is
one that no memory can hold. -/
def Server.outcome (s : Server) (input : List UInt8) : Server × List Act × Option Nat :=
  match s.obey (texts input).1 with
  | (s, acts, some code) => (s, acts, some code)
  | (s, acts, none) =>
      match cut (texts input).2 with
      | .overflow => (s, acts ++ [.exit crashCode], some crashCode)
      | _ => (s, acts, none)

/-- Goes on after something has been done, unless that was an exit. -/
def Server.goOn (first : Server × List Act × Option Nat)
    (second : Server → Server × List Act × Option Nat) : Server × List Act × Option Nat :=
  match first with
  | (s, acts, some code) => (s, acts, some code)
  | (s, acts, none) => ((second s).1, acts ++ (second s).2.1, (second s).2.2)

namespace Running

/-- Takes pieces of input one after the other. -/
def receiveAll (p : Running) : List (List UInt8) → Running × List Act
  | [] => (p, [])
  | piece :: pieces =>
      let now := p.receive piece
      let later := now.1.receiveAll pieces
      (later.1, now.2 ++ later.2)

/-- What can be seen of a server that has done something: not what it has not taken yet. -/
def seen (done : Running × List Act) : Server × List Act × Option Nat :=
  (done.1.server, done.2, done.1.exitCode)

end Running

theorem Server.obey_append (s : Server) (first second : List (List Char)) :
    s.obey (first ++ second) = Server.goOn (s.obey first) (·.obey second) := by
  induction first generalizing s with
  | nil => rfl
  | cons text first ih =>
      rw [List.cons_append, Server.obey, Server.obey]
      cases Message.parse? text with
      | none => exact ih s
      | some message =>
          dsimp only
          cases Running.exitIn (s.handle message).2 with
          | some code => rfl
          | none =>
              dsimp only
              rw [ih]
              rcases (s.handle message).1.obey first with ⟨s', acts, _ | code⟩ <;>
                simp [Server.goOn]

/-- The texts at the front of an input are obeyed before the rest is looked at. -/
theorem Server.outcome_eq_goOn (s : Server) {input rest : List UInt8} {first : List (List Char)}
    (begins : texts input = (first ++ (texts rest).1, (texts rest).2)) :
    s.outcome input = Server.goOn (s.obey first) (·.outcome rest) := by
  rw [Server.outcome, begins, Server.obey_append]
  rcases s.obey first with ⟨s', acts, _ | code⟩
  · simp only [Server.goOn, Server.outcome]
    rcases s'.obey (texts rest).1 with ⟨s'', more, _ | code⟩
    · cases cut (texts rest).2 <;> simp
    · rfl
  · rfl

/-- What is done with an input is done with a first part of it, and then with what is left. -/
theorem Server.outcome_append (s : Server) (input more : List UInt8) :
    s.outcome (input ++ more) =
      Server.goOn (s.outcome input) (·.outcome ((texts input).2 ++ more)) := by
  rw [Server.outcome_eq_goOn s (texts_append input more), Server.outcome.eq_def s input]
  rcases s.obey (texts input).1 with ⟨s', acts, _ | code⟩
  · cases left : cut (texts input).2 with
    | message text rest => exact absurd left (cut_texts _ _ _)
    | incomplete => rfl
    | overflow =>
        have stays := (cut_append more).2 left
        have nothing := texts_of_not_message fun text rest
          (form : cut ((texts input).2 ++ more) = .message text rest) => by
            rw [stays] at form; cases form
        simp [Server.outcome, Server.goOn, nothing, stays, Server.obey]
  · rfl

namespace Running

/-- Draining an input is to do what is to be done with it; what is left is kept. -/
theorem seen_drain (s : Server) (input : List UInt8) :
    seen (drain s input) = s.outcome input ∧
      ((drain s input).1.exitCode = none → (drain s input).1.input = (texts input).2) := by
  fun_induction drain s input with
  | case1 s input found =>
      have nothing := texts_of_not_message fun text rest (form : cut input = .message text rest) =>
        by rw [found] at form; cases form
      simp [seen, Server.outcome, nothing, Server.obey, found]
  | case2 s input found =>
      have nothing := texts_of_not_message fun text rest (form : cut input = .message text rest) =>
        by rw [found] at form; cases form
      simp [seen, Server.outcome, nothing, Server.obey, found]
  | case3 s input text rest found unread ih =>
      have begins : texts input = ([text] ++ (texts rest).1, (texts rest).2) :=
        texts_of_message found
      have obeyed : s.obey [text] = (s, [], none) := by simp [Server.obey, unread]
      rw [Server.outcome_eq_goOn s begins, obeyed, begins]
      exact ih
  | case4 s input text rest found message reads server acts handled code exits =>
      have begins : texts input = ([text] ++ (texts rest).1, (texts rest).2) :=
        texts_of_message found
      have obeyed : s.obey [text] = (server, acts, some code) := by
        simp [Server.obey, reads, handled, exits]
      rw [Server.outcome_eq_goOn s begins, obeyed]
      exact ⟨rfl, nofun⟩
  | case5 s input text rest found message reads server acts handled stays p more drained ih =>
      have begins : texts input = ([text] ++ (texts rest).1, (texts rest).2) :=
        texts_of_message found
      have obeyed : s.obey [text] = (server, acts, none) := by
        simp [Server.obey, reads, handled, stays]
      rw [drained] at ih
      obtain ⟨done, left⟩ := ih
      rw [Server.outcome_eq_goOn s begins, obeyed, begins]
      refine ⟨?_, left⟩
      rw [Server.goOn, ← done]
      rfl

/-- A server that has done all that is to be done with an input does nothing more with what is
left. -/
theorem outcome_texts {s t : Server} {input : List UInt8} {acts : List Act}
    (done : s.outcome input = (t, acts, none)) : t.outcome (texts input).2 = (t, [], none) := by
  have again := s.outcome_append input []
  rw [List.append_nil, List.append_nil, done, Server.goOn] at again
  generalize t.outcome (texts input).2 = later at again ⊢
  obtain ⟨server, more, code⟩ := later
  simp only [Prod.mk.injEq, List.self_eq_append_right] at again
  obtain ⟨rfl, rfl, rfl⟩ := again
  rfl

theorem receiveAll_of_exit {p : Running} {code : Nat} (exited : p.exitCode = some code)
    (pieces : List (List UInt8)) : p.receiveAll pieces = (p, []) := by
  induction pieces with
  | nil => rfl
  | cons piece pieces ih =>
      have deaf : p.receive piece = (p, []) := by rw [receive, exited]
      rw [receiveAll, deaf]
      dsimp only
      rw [ih]
      rfl

/-- Taking pieces one after the other is to do what is to be done with the whole. -/
theorem seen_receiveAll {p : Running} (runs : p.exitCode = none)
    (idle : p.server.outcome p.input = (p.server, [], none)) (pieces : List (List UInt8)) :
    seen (p.receiveAll pieces) = p.server.outcome (p.input ++ pieces.flatten) := by
  induction pieces generalizing p with
  | nil => rw [List.flatten_nil, List.append_nil, idle, receiveAll, seen, runs]
  | cons piece pieces ih =>
      obtain ⟨done, left⟩ := seen_drain p.server (p.input ++ piece)
      have taken : p.receive piece = drain p.server (p.input ++ piece) := by rw [receive, runs]
      rw [receiveAll, taken, List.flatten_cons, ← List.append_assoc, Server.outcome_append, ← done]
      generalize drain p.server (p.input ++ piece) = now at done left
      obtain ⟨q, acts⟩ := now
      cases exits : q.exitCode with
      | some code =>
          dsimp only
          rw [receiveAll_of_exit exits]
          simp [seen, Server.goOn, exits]
      | none =>
          have rest : q.input = (texts (p.input ++ piece)).2 := left exits
          have quiet : q.server.outcome q.input = (q.server, [], none) := by
            rw [rest]
            exact outcome_texts (done.symm.trans (by rw [seen, exits]))
          have later := ih exits quiet
          simp only [seen, Server.goOn, exits, ← rest, ← later]

end Running

/-! ### Frames of the bridge -/

/-- A blank line is found where it begins, if there is no carriage return in front of it. -/
theorem splitHeaders?_of_notMem {before : List UInt8} (after : List UInt8) (clean : 13 ∉ before) :
    splitHeaders? (before ++ 13 :: 10 :: 13 :: 10 :: after) = some (before, after) := by
  induction before with
  | nil => rfl
  | cons b before ih =>
      simp only [List.mem_cons, not_or] at clean
      rw [List.cons_append]
      unfold splitHeaders?
      split
      · exact absurd rfl clean.1
      · rw [ih clean.2]
        rfl

theorem lines_of_notMem {s : List Char} (filled : s ≠ []) (noFeed : '\n' ∉ s) :
    Text.lines s = [s] := by
  have whole : ∀ (t line : List Char), '\n' ∉ t → line ≠ [] ∨ t ≠ [] →
      Text.fullLinesFrom line t = [line.reverse ++ t] := by
    intro t
    induction t with
    | nil =>
        intro line _ some
        have notEmpty : line.isEmpty = false :=
          List.isEmpty_eq_false_iff.mpr (some.resolve_right (by simp))
        simp [Text.fullLinesFrom, notEmpty]
    | cons c t ih =>
        intro line clean _
        simp only [List.mem_cons, not_or] at clean
        rw [Text.fullLinesFrom, if_neg (Ne.symm clean.1), ih (c :: line) clean.2 (.inl (by simp))]
        simp
  have open_ : Text.withoutLineEnd s = s := by
    rw [Text.withoutLineEnd]
    split
    · next form => exact absurd (by rw [← List.mem_reverse, form]; simp) noFeed
    · next form => exact absurd (by rw [← List.mem_reverse, form]; simp) noFeed
    · rfl
  rw [Text.lines, Text.fullLines, whole s [] noFeed (.inr filled), List.reverse_nil,
    List.nil_append, List.map_singleton, open_]

open Rpc.Frame (lengthText)

/-- The line of the bridge announces the length that it was written with. -/
theorem announced?_lengthText {n : Nat} (fits : n ≤ greatestLength) :
    announced? (lengthText n) = some n := by
  have noFeed : '\n' ∉ lengthText n := by
    rw [lengthText, List.mem_append, not_or]
    refine ⟨by decide, fun inside => ?_⟩
    exact absurd (List.all_eq_true.mp (Numeral.all_isDigit_digits n) _ inside) (by decide)
  have named : lengthName <+: (lengthText n).map Char.toLower := by
    rw [lengthText, List.map_append]
    exact List.IsPrefix.trans (by decide) (List.prefix_append _ _)
  have value : (lengthText n).drop lengthName.length = ' ' :: Numeral.digits n := rfl
  have trimmed : Text.trim (' ' :: Numeral.digits n) = Numeral.digits n := by
    have blank : Text.trimStart (' ' :: Numeral.digits n) = Text.trimStart (Numeral.digits n) := rfl
    rw [Text.trim, blank, ← Text.trim, Rpc.Frame.trim_digits]
  have filled : lengthText n ≠ [] := List.append_ne_nil_of_left_ne_nil (by decide) _
  rw [announced?, lines_of_notMem filled noFeed]
  simp [named, value, trimmed, Numeral.natural?_digits, fits]

theorem return_notMem_lengthText (n : Nat) : 13 ∉ Text.Utf8.encode (lengthText n) := by
  rw [Text.Utf8.encode, List.mem_flatMap]
  rintro ⟨c, inside, byte⟩
  have isReturn : c = '\r' := (Text.Utf8.eq_of_mem_utf8EncodeChar (by decide) byte).2
  rw [isReturn, lengthText, List.mem_append] at inside
  rcases inside with inside | inside
  · exact absurd inside (by decide)
  · exact absurd (List.all_eq_true.mp (Numeral.all_isDigit_digits n) _ inside) (by decide)

/-- The frame of a value is cut into the text of the value and what comes behind the frame. -/
theorem cut_encodeBytes {v : Json} (fits : (Rpc.Frame.encodeBytes v).length ≤ greatestLength)
    (rest : List UInt8) : cut (Rpc.Frame.encodeBytes v ++ rest) = .message v.chars rest := by
  have size := Text.Utf8.length_encode v.chars
  generalize length : Text.Utf8.byteLength v.chars = n at size
  have form : Rpc.Frame.encodeBytes v = Text.Utf8.encode (lengthText n) ++
      13 :: 10 :: 13 :: 10 :: Text.Utf8.encode v.chars := by
    rw [Rpc.Frame.encodeBytes_eq, Rpc.Frame.lengthLine, Text.Utf8.encode_append, length,
      List.append_assoc]
    rfl
  have whole : (Rpc.Frame.encodeBytes v).length =
      (Text.Utf8.encode (lengthText n)).length + 4 + n := by
    rw [form]
    simp [size]
    omega
  have headers : splitHeaders? (Rpc.Frame.encodeBytes v ++ rest) =
      some (Text.Utf8.encode (lengthText n), Text.Utf8.encode v.chars ++ rest) := by
    rw [form, List.append_assoc]
    exact splitHeaders?_of_notMem _ (return_notMem_lengthText n)
  have announces : announced? (lengthText n) = some n := announced?_lengthText (by omega)
  have small : ¬ greatestLength < (Text.Utf8.encode (lengthText n)).length + 4 + n :=
    Nat.not_lt.mpr (whole ▸ fits)
  have enough : ¬ (Text.Utf8.encode v.chars ++ rest).length < n := by
    rw [List.length_append, size]
    omega
  simp only [cut, headers, Text.Utf8.decode?_encode, Option.bind_some, announces, if_neg small,
    if_neg enough, List.take_left' size, List.drop_left' size]

/-- A stream of frames is cut into the texts of their values. -/
theorem texts_flatMap_encodeBytes {messages : List Json}
    (fits : ∀ v ∈ messages, (Rpc.Frame.encodeBytes v).length ≤ greatestLength) :
    texts (messages.flatMap Rpc.Frame.encodeBytes) = (messages.map Json.chars, []) := by
  induction messages with
  | nil => exact texts_of_not_message fun _ _ => nofun
  | cons v messages ih =>
      rw [List.forall_mem_cons] at fits
      rw [List.flatMap_cons, texts_of_message (cut_encodeBytes fits.1 _), ih fits.2,
        List.map_cons]

namespace Running

/-- A server finds in pieces of input what stands in the whole, however it has been cut. The texts
are those of the whole input, and so is what is left of it (`whole`). What is done is done with
these texts one after the other, up to an exit (`handled`). Other pieces of the same input hold the
same texts, and the same is done with them (`alike`). Pieces of a stream of frames hold the texts of
the values in the frames and nothing else (`frames`). -/
structure SeesThrough (options : Options) (pieces : List (List UInt8)) : Prop where
  whole : textsFrom [] pieces = texts pieces.flatten
  handled : seen ((start options).receiveAll pieces) =
    match (Server.start options).obey (textsFrom [] pieces).1, cut (textsFrom [] pieces).2 with
    | (s, acts, none), .overflow => (s, acts ++ [.exit crashCode], some crashCode)
    | done, _ => done
  alike : ∀ others : List (List UInt8), others.flatten = pieces.flatten →
    textsFrom [] others = textsFrom [] pieces ∧
      seen ((start options).receiveAll others) = seen ((start options).receiveAll pieces)
  frames : ∀ messages : List Json,
    (∀ v ∈ messages, (Rpc.Frame.encodeBytes v).length ≤ greatestLength) →
    pieces.flatten = messages.flatMap Rpc.Frame.encodeBytes →
    textsFrom [] pieces = (messages.map Json.chars, [])

theorem texts_nil : texts [] = ([], []) :=
  texts_of_not_message fun _ _ => nofun

theorem textsFrom_nil (pieces : List (List UInt8)) :
    textsFrom [] pieces = texts pieces.flatten :=
  textsFrom_eq texts_nil pieces

theorem seen_receiveAll_start (options : Options) (pieces : List (List UInt8)) :
    seen ((start options).receiveAll pieces) = (Server.start options).outcome pieces.flatten := by
  have idle : (Server.start options).outcome [] = (Server.start options, [], none) := by
    rw [Server.outcome, texts_nil]
    rfl
  exact seen_receiveAll rfl idle pieces

/-- Whatever a server is sent, it does not matter in which pieces it comes. -/
theorem seesThrough (options : Options) (pieces : List (List UInt8)) :
    SeesThrough options pieces where
  whole := textsFrom_nil pieces
  handled := by
    rw [seen_receiveAll_start, textsFrom_nil, Server.outcome]
    rcases (Server.start options).obey (texts pieces.flatten).1 with ⟨s, acts, _ | code⟩
    · cases cut (texts pieces.flatten).2 <;> rfl
    · rfl
  alike := by
    intro others same
    rw [textsFrom_nil, textsFrom_nil, seen_receiveAll_start, seen_receiveAll_start, same]
    exact ⟨rfl, rfl⟩
  frames := by
    intro messages fits form
    rw [textsFrom_nil, form, texts_flatMap_encodeBytes fits]

end Running

end EditorBridge.Practice
