import EditorBridge.Proofs.Practice.Exits

/-!
# Lengths that no memory can hold

The practice server looks for a message at the front of its input by adding up positions in 64 bits
and cutting parts out of the input between them (`extract`). It finds what `cut` finds.

Nothing in this ever fails but for one reason: the length that is announced lies so near to the
greatest number of 64 bits that the end of the message has no number (`IsTooLong`). A checked sum
fails then; one that wraps round puts the end of the body before its beginning. Such a length brings
the server down as soon as it comes to it, and the server dies of nothing else except a change that
it has been asked for before (`isReckoned`).
-/

namespace EditorBridge.Practice

variable {input headers rest : List UInt8} {a : Arithmetic} {length : Nat}

theorem part_append (before middle after : List UInt8) :
    part (before ++ (middle ++ after)) before.length (before.length + middle.length) =
      .ok middle := by
  rw [part, if_pos (by simp), ← List.append_assoc, ← List.length_append, List.take_left' rfl,
    List.drop_left' rfl]

/-- The empty header line is found where the headers end. -/
theorem blankLine?_eq (input : List UInt8) :
    (∀ headers rest, splitHeaders? input = some (headers, rest) →
      blankLine? input = some headers.length ∧ input = headers ++ ([13, 10, 13, 10] ++ rest)) ∧
    (splitHeaders? input = none → blankLine? input = none) := by
  induction input with
  | nil => exact ⟨nofun, fun _ => rfl⟩
  | cons b input ih =>
      unfold splitHeaders?
      split
      · next rest =>
          refine ⟨?_, nofun⟩
          rintro headers rest ⟨⟩
          exact ⟨rfl, rfl⟩
      · next notHere =>
          have other : [13, 10, 13, 10].isPrefixOf (b :: input) = false := by
            refine Bool.eq_false_iff.mpr fun first => ?_
            obtain ⟨after, form⟩ := List.isPrefixOf_iff_prefix.mp first
            obtain ⟨rfl, rfl⟩ := List.cons.inj form
            exact notHere after rfl rfl
          rw [blankLine?, if_neg (by rw [other]; nofun)]
          constructor
          · intro headers rest found
            obtain ⟨⟨first, second⟩, later, same⟩ := Option.map_eq_some_iff.mp found
            obtain ⟨rfl, rfl⟩ := Prod.mk.inj same
            obtain ⟨position, form⟩ := ih.1 first second later
            rw [position, form]
            exact ⟨rfl, rfl⟩
          · intro absent
            rw [ih.2 (Option.map_eq_none_iff.mp absent)]
            rfl

theorem part_headers (split : splitHeaders? input = some (headers, rest)) :
    part input 0 headers.length = .ok headers := by
  rw [((blankLine?_eq input).1 headers rest split).2,
    ← part_append [] headers ([13, 10, 13, 10] ++ rest)]
  simp

/-- A length has a number of 64 bits. -/
theorem announced?_le {text : List Char} (announces : announced? text = some length) :
    length ≤ greatestLength := by
  have kept : ∀ (lines : List (List Char)) (before : Option Nat),
      (∀ n, before = some n → n ≤ greatestLength) →
      ∀ n, lines.foldl (fun length line =>
        if lengthName.isPrefixOf (line.map Char.toLower) then
          (Numeral.natural? (Text.trim (line.drop lengthName.length))).filter (· ≤ greatestLength)
        else length) before = some n → n ≤ greatestLength := by
    intro lines
    induction lines with
    | nil => exact fun before small => small
    | cons line lines ih =>
        intro before small
        refine ih _ fun n => ?_
        beta_reduce
        split
        · exact fun found => of_decide_eq_true (Option.filter_eq_some_iff.mp found).2
        · exact small n
  exact kept _ none nofun length announces

/-! ### Looking at an input -/

/-- The fault that a sum which leaves 64 bits leads to. -/
def faultOf : Arithmetic → Fault
  | .checked => .sum
  | .wrapping => .part

/-- Whether no length is announced at the front of an input. -/
def IsSilent (input : List UInt8) : Prop :=
  ∀ headers rest, splitHeaders? input = some (headers, rest) →
    (Text.Utf8.decode? headers).bind announced? = none

/-- Whether a length is announced in the headers at the front of an input. -/
structure Announces (input headers rest : List UInt8) (length : Nat) : Prop where
  split : splitHeaders? input = some (headers, rest)
  announced : (Text.Utf8.decode? headers).bind announced? = some length

theorem isSilent_or_announces (input : List UInt8) :
    IsSilent input ∨ ∃ headers rest length, Announces input headers rest length := by
  cases split : splitHeaders? input with
  | none => exact .inl fun headers rest found => by cases split.symm.trans found
  | some found =>
      obtain ⟨headers, rest⟩ := found
      cases announced : (Text.Utf8.decode? headers).bind announced? with
      | none =>
          left
          intro headers rest found
          cases split.symm.trans found
          exact announced
      | some length => exact .inr ⟨headers, rest, length, split, announced⟩

theorem cut_of_isSilent (silent : IsSilent input) : cut input = .incomplete := by
  rw [cut]
  cases split : splitHeaders? input with
  | none => rfl
  | some found => simp only [silent found.1 found.2 split]

theorem extract_of_isSilent (silent : IsSilent input) : extract a input = .ok none := by
  cases split : splitHeaders? input with
  | none => rw [extract, (blankLine?_eq input).2 split]
  | some found =>
      obtain ⟨headers, rest⟩ := found
      obtain ⟨position, -⟩ := (blankLine?_eq input).1 headers rest split
      simp only [extract, position, part_headers split, bind, Except.bind,
        silent headers rest split]

namespace Announces

theorem form (h : Announces input headers rest length) :
    input = headers ++ ([13, 10, 13, 10] ++ rest) :=
  ((blankLine?_eq input).1 headers rest h.split).2

theorem size (h : Announces input headers rest length) :
    input.length = headers.length + 4 + rest.length := by
  rw [h.form]
  simp
  omega

theorem length_lt (h : Announces input headers rest length) : length < UInt64.size := by
  obtain ⟨text, -, announced⟩ := Option.bind_eq_some_iff.mp h.announced
  exact Nat.lt_of_le_of_lt (announced?_le announced) (by decide)

theorem cut_eq (h : Announces input headers rest length) :
    cut input =
      if UInt64.size ≤ headers.length + 4 + length then .overflow
      else if rest.length < length then .incomplete
      else
        match Text.Utf8.decode? (rest.take length) with
        | some text => .message text (rest.drop length)
        | none => .incomplete := by
  simp only [cut, h.split, h.announced]
  rfl

theorem part_body (h : Announces input headers rest length) (long : length ≤ rest.length) :
    part input (headers.length + 4) (headers.length + 4 + length) = .ok (rest.take length) := by
  have middle := part_append (headers ++ [13, 10, 13, 10]) (rest.take length) (rest.drop length)
  rw [List.take_append_drop, List.append_assoc, ← h.form, List.length_append,
    List.length_take_of_le long] at middle
  exact middle

theorem extract_eq (h : Announces input headers rest length) (fits : input.length < UInt64.size) :
    extract a input =
      if UInt64.size ≤ headers.length + 4 + length then .error (faultOf a)
      else if rest.length < length then .ok none
      else .ok ((Text.Utf8.decode? (rest.take length)).map (·, headers.length + 4 + length)) := by
  have size := h.size
  have most := h.length_lt
  obtain ⟨position, -⟩ := (blankLine?_eq input).1 headers rest h.split
  have start : a.add headers.length 4 = .ok (headers.length + 4) := Arithmetic.add_of_lt (by omega)
  simp only [extract, position, part_headers h.split, bind, Except.bind, h.announced, start]
  by_cases great : UInt64.size ≤ headers.length + 4 + length
  · rw [if_pos great, Arithmetic.add_of_le great]
    cases a with
    | checked => rfl
    | wrapping =>
        -- The sum wraps round to a position before the beginning of the body.
        have wrapped : (headers.length + 4 + length) % UInt64.size =
            headers.length + 4 + length - UInt64.size := by
          rw [Nat.mod_eq_sub_mod great, Nat.mod_eq_of_lt (by omega)]
        simp only [wrapped]
        rw [if_neg (by omega), part, if_neg (by omega)]
        rfl
  · rw [if_neg great, Arithmetic.add_of_lt (Nat.not_le.mp great)]
    simp only [size]
    by_cases short : rest.length < length
    · rw [if_pos short, if_pos (by omega)]
    · rw [if_neg short, if_neg (by omega), h.part_body (Nat.not_lt.mp short)]

end Announces

/-- An input is cut at the end of the message that is found in it. -/
theorem cut_eq (fits : input.length < UInt64.size) :
    cut input =
      match extract a input with
      | .error _ => .overflow
      | .ok none => .incomplete
      | .ok (some (text, total)) => .message text (input.drop total) := by
  rcases isSilent_or_announces input with silent | ⟨headers, rest, length, h⟩
  · rw [cut_of_isSilent silent, extract_of_isSilent silent]
  · have behind : input.drop (headers.length + 4 + length) = rest.drop length := by
      rw [h.form, ← List.append_assoc, ← List.drop_drop, List.drop_left' (by simp)]
    rw [h.cut_eq, h.extract_eq fits]
    split
    · rfl
    · split
      · rfl
      · cases Text.Utf8.decode? (rest.take length) with
        | none => rfl
        | some text =>
            rw [← behind]
            rfl

/-- The message that is found in an input does not reach behind it. -/
theorem total_le (fits : input.length < UInt64.size) {text : List Char} {total : Nat}
    (found : extract a input = .ok (some (text, total))) : total ≤ input.length := by
  rcases isSilent_or_announces input with silent | ⟨headers, rest, length, h⟩
  · rw [extract_of_isSilent silent] at found
    cases found
  · rw [h.extract_eq fits] at found
    split at found
    · cases found
    · split at found
      · cases found
      · obtain ⟨_, -, same⟩ := Option.map_eq_some_iff.mp (Except.ok.inj found)
        obtain ⟨-, rfl⟩ := Prod.mk.inj same
        have size := h.size
        omega

/-- Whether the message at the front of an input would end behind the greatest position. -/
def IsTooLong (input : List UInt8) : Prop :=
  ∃ headers rest length, Announces input headers rest length ∧
    UInt64.size ≤ headers.length + 4 + length

/-- Whether an input can be looked at without a fault. -/
def IsSound (input : List UInt8) : Prop :=
  ∀ a, ∃ found, extract a input = .ok found

theorem cut_eq_overflow_iff : cut input = .overflow ↔ IsTooLong input := by
  constructor
  · intro overflow
    rcases isSilent_or_announces input with silent | ⟨headers, rest, length, h⟩
    · cases (cut_of_isSilent silent).symm.trans overflow
    · refine ⟨headers, rest, length, h, ?_⟩
      rw [h.cut_eq] at overflow
      split at overflow
      · assumption
      · split at overflow
        · cases overflow
        · split at overflow <;> cases overflow
  · rintro ⟨headers, rest, length, h, great⟩
    rw [h.cut_eq, if_pos great]

/-- An input can be looked at without a fault unless the length in it is too great. -/
theorem isSound_iff (fits : input.length < UInt64.size) : IsSound input ↔ ¬ IsTooLong input := by
  rw [← cut_eq_overflow_iff]
  constructor
  · intro sound overflow
    obtain ⟨found, value⟩ := sound .checked
    rw [cut_eq (a := .checked) fits, value] at overflow
    cases found <;> cases overflow
  · intro whole a
    rw [cut_eq (a := a) fits] at whole
    cases value : extract a input with
    | error fault => exact absurd (by rw [value]) whole
    | ok found => exact ⟨found, rfl⟩

/-! ### What the server makes of it -/

theorem outcome_eq_crashCode_iff (s : Server) (input : List UInt8) :
    (s.outcome input).2.2 = some crashCode ↔ s.IsBroughtDown (texts input).1 ∨
      (s.obey (texts input).1).2.2 = none ∧ IsTooLong (texts input).2 := by
  rw [Server.outcome, ← cut_eq_overflow_iff, ← obey_eq_crashCode_iff]
  rcases s.obey (texts input).1 with ⟨t, acts, _ | code⟩
  · cases cut (texts input).2 <;> simp
  · simp

theorem length_texts_le (input : List UInt8) : (texts input).2.length ≤ input.length := by
  fun_induction texts input with
  | case1 input text rest found ih => exact Nat.le_trans ih (Nat.le_of_lt (length_cut_lt found))
  | case2 | case3 => exact Nat.le_refl _

/-- What looking at an input comes to, and what becomes of a server that gets it. There is a fault
exactly if the length is too great (`sound`). The message that is found lies in the input, which is
cut behind it (`within`). The input waits for more if there is no message in it (`waits`). A server
dies of the input, in whatever pieces it comes, exactly if one of the messages in it brings the
server down, or if the server has not exited before it comes to a part of the input that cannot be
looked at without a fault (`dies`). -/
structure IsReckoned (input : List UInt8) : Prop where
  sound : IsSound input ↔ ¬ IsTooLong input
  within : ∀ a text total, extract a input = .ok (some (text, total)) →
    total ≤ input.length ∧ cut input = .message text (input.drop total)
  waits : ∀ a, extract a input = .ok none → cut input = .incomplete
  dies : ∀ options pieces, pieces.flatten = input →
    (((Running.start options).receiveAll pieces).1.exitCode = some crashCode ↔
      (Server.start options).IsBroughtDown (texts input).1 ∨
        ((Server.start options).obey (texts input).1).2.2 = none ∧ ¬ IsSound (texts input).2)

/-- The headers of a message with the greatest length of all. -/
def greatestFrame : List UInt8 :=
  Text.Utf8.encode "Content-Length: 18446744073709551615\r\n\r\n".toList

theorem isTooLong_greatest : IsTooLong greatestFrame := by
  let line := "Content-Length: 18446744073709551615".toList
  refine ⟨Text.Utf8.encode line, [], greatestLength, ⟨by decide, ?_⟩, by decide⟩
  rw [Text.Utf8.decode?_encode, Option.bind_some]
  decide +kernel

/-- An input is looked at without a fault but for a length that is too great, and a server dies of
the input just if it comes to such a length or to a change without a value. -/
theorem isReckoned (fits : input.length < UInt64.size) : IsReckoned input where
  sound := isSound_iff fits
  within a text total found := by
    refine ⟨total_le fits found, ?_⟩
    rw [cut_eq (a := a) fits, found]
  waits a nothing := by rw [cut_eq (a := a) fits, nothing]
  dies options pieces form := by
    have seen := congrArg (·.2.2) (Running.seen_receiveAll_start options pieces)
    have left := Nat.lt_of_le_of_lt (length_texts_le input) fits
    rw [isSound_iff left, not_not, ← outcome_eq_crashCode_iff, ← form]
    exact Eq.congr_left seen

/-- The greatest length of all cannot be looked at without a fault. -/
theorem isReckoned_greatest : greatestFrame.length < UInt64.size ∧ IsReckoned greatestFrame ∧
    ¬ IsSound greatestFrame := by
  have fits : greatestFrame.length < UInt64.size := by decide
  have reckoned := isReckoned fits
  exact ⟨fits, reckoned, fun sound => reckoned.sound.mp sound isTooLong_greatest⟩

/-- With the greatest length of all the end of the message has no number, and every server dies of
it. -/
theorem not_isSound_greatest : ¬ IsSound greatestFrame ∧
    ∀ options, ((Running.start options).receive greatestFrame).1.exitCode = some crashCode := by
  refine ⟨fun sound => (isSound_iff (by decide)).mp sound isTooLong_greatest, fun options => ?_⟩
  have overflow := cut_eq_overflow_iff.mpr isTooLong_greatest
  have alone : texts greatestFrame = ([], greatestFrame) :=
    texts_of_not_message fun text rest found => by cases overflow.symm.trans found
  have dies := (outcome_eq_crashCode_iff (Server.start options) greatestFrame).mpr
    (by rw [alone]; exact .inr ⟨rfl, isTooLong_greatest⟩)
  have seen := (Running.seen_drain (Server.start options) greatestFrame).1
  exact (congrArg (·.2.2) seen).trans dies

end EditorBridge.Practice
