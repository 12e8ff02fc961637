import EditorBridge.Json.Source
import EditorBridge.Json.Printer

/-!
# How values are spelled

The grammar takes the text of a value apart into the spelling of the value, and leaves what follows
the text: `readValue_chars`. The spelling of a value holds its strings with their escapes and its
integers with their digits; it is defined for values whose numbers are integers of 64 bits and whose
arrays and objects do not nest too deep, which are those that a text gives back exactly (`isExact`).
-/

namespace EditorBridge.Json

mutual

/-- Whether all numbers of a value are integers of 64 bits, with a sign or without, and its arrays
and objects nest at most `depth` deep. -/
def isExact (depth : Nat) : Json → Bool
  | null | bool _ | string _ => true
  | int n => Int64.minValue.toInt ≤ n && n < UInt64.size
  | float _ => false
  | array items => depth != 0 && areExact (depth - 1) items
  | object members => depth != 0 && areExactMembers (depth - 1) members

/-- `isExact` of every item of an array. -/
def areExact (depth : Nat) : List Json → Bool
  | [] => true
  | item :: rest => isExact depth item && areExact depth rest

/-- `isExact` of every member of an object. -/
def areExactMembers (depth : Nat) : List (String × Json) → Bool
  | [] => true
  | (_, value) :: rest => isExact depth value && areExactMembers depth rest

end

namespace Source

/-- The spelling of a string. -/
def escaped (s : String) : List Char :=
  s.toList.flatMap escape

/-- The spelling of an integer. -/
def numeral (n : Int) : Spelling :=
  ⟨decide (n < 0), Numeral.digits n.natAbs, none, none⟩

mutual

/-- The spelling of a value. A binary64 has none here. -/
def ofValue : Json → Source
  | .null | .float _ => null
  | .bool b => bool b
  | .int n => number (numeral n)
  | .string s => string (escaped s)
  | .array items => array (ofValues items)
  | .object members => object (ofNamed members)

/-- The spellings of the items of an array. -/
def ofValues : List Json → List Source
  | [] => []
  | item :: rest => ofValue item :: ofValues rest

/-- The spellings of the members of an object. -/
def ofNamed : List (String × Json) → List (List Char × Source)
  | [] => []
  | (name, value) :: rest => (escaped name, ofValue value) :: ofNamed rest

end

/-! ### Strings -/

theorem isDigit_digit {n : Nat} (h : n < 16) : Text.Hex.isDigit (Text.Hex.digit n) = true := by
  rw [Text.Hex.isDigit, Text.Hex.value?_digit h]
  rfl

theorem readString_plain {done rest : List Char} {c : Char} (notQuote : c ≠ '"')
    (notSlash : c ≠ '\\') (printable : 0x20 ≤ c.toNat) :
    readString done (c :: rest) = readString (c :: done) rest := by
  conv => lhs; unfold readString
  split
  · next h => cases h
  · next h => exact absurd (List.cons.inj h).1 notQuote
  · next h => exact absurd (List.cons.inj h).1 notSlash
  · next h => exact absurd (List.cons.inj h).1 notSlash
  · next h =>
      obtain ⟨rfl, rfl⟩ := List.cons.inj h
      rw [if_neg]
      simp only [Bool.or_eq_true, decide_eq_true_eq, beq_iff_eq, not_or]
      exact ⟨by omega, notSlash⟩

theorem readString_short (done rest : List Char) {e : Char} (short : isShortEscape e = true) :
    readString done ('\\' :: e :: rest) = readString (e :: '\\' :: done) rest := by
  conv => lhs; unfold readString
  split
  · next h => cases h
  · next h => exact absurd (List.cons.inj h).1 (by decide)
  · next h =>
      obtain ⟨rfl, -⟩ := List.cons.inj (List.cons.inj h).2
      cases short
  · next h =>
      obtain ⟨rfl, rfl⟩ := List.cons.inj (List.cons.inj h).2
      rw [if_pos short]
  · next other h =>
      obtain ⟨rfl, rfl⟩ := List.cons.inj h
      exact absurd rfl (other e rest rfl)

theorem readString_unicode (done rest : List Char) {a b c d : Char}
    (digits : [a, b, c, d].all Text.Hex.isDigit = true) :
    readString done ('\\' :: 'u' :: a :: b :: c :: d :: rest) =
      readString (d :: c :: b :: a :: 'u' :: '\\' :: done) rest := by
  have unfolded : readString done ('\\' :: 'u' :: a :: b :: c :: d :: rest) =
      if [a, b, c, d].all Text.Hex.isDigit then
        readString (d :: c :: b :: a :: 'u' :: '\\' :: done) rest
      else none := rfl
  rw [unfolded, if_pos digits]

/-- A character as it is written inside a string is read as it stands there. -/
theorem readString_escape (done rest : List Char) (c : Char) :
    readString done (escape c ++ rest) = readString ((escape c).reverse ++ done) rest := by
  unfold escape
  split
  · exact readString_short done rest rfl
  split
  · exact readString_short done rest rfl
  split
  · exact readString_short done rest rfl
  split
  · exact readString_short done rest rfl
  split
  · exact readString_short done rest rfl
  split
  · exact readString_short done rest rfl
  split
  · exact readString_short done rest rfl
  split
  · next control =>
      have high := isDigit_digit (show c.toNat / 16 < 16 by omega)
      have low := isDigit_digit (show c.toNat % 16 < 16 by omega)
      have zero : Text.Hex.isDigit '0' = true := by decide
      refine readString_unicode done rest ?_
      simp only [List.all_cons, List.all_nil, zero, high, low, Bool.and_self]
  · next notQuote notSlash _ _ _ _ _ printable =>
      exact readString_plain notQuote notSlash (by omega)

theorem readString_escaped (s : String) (rest : List Char) :
    readString [] (escaped s ++ '"' :: rest) = some (escaped s, rest) := by
  have step : ∀ (cs done : List Char), readString done (cs.flatMap escape ++ '"' :: rest) =
      some (done.reverse ++ cs.flatMap escape, rest) := by
    intro cs
    induction cs with
    | nil =>
        intro done
        rw [List.flatMap_nil, List.append_nil]
        rfl
    | cons c cs ih =>
        intro done
        rw [List.flatMap_cons, List.append_assoc, readString_escape, ih]
        simp
  exact step s.toList []

/-! ### Integers -/

/-- What may follow a number: nothing that could belong to it. -/
def Ends (rest : List Char) : Prop :=
  ∀ c ∈ rest.head?, Numeral.isDigit c = false ∧ c ≠ '.' ∧ c ≠ 'e' ∧ c ≠ 'E'

theorem head?_digits_append (n : Nat) (rest : List Char) :
    (Numeral.digits n ++ rest).head? = (Numeral.digits n).head? := by
  cases form : Numeral.digits n with
  | nil => exact absurd form (Numeral.digits_ne_nil n)
  | cons d ds => rfl

theorem head?_digits_ne_zero {n : Nat} (positive : 0 < n) :
    (Numeral.digits n).head? ≠ some '0' := by
  induction n using Nat.strongRecOn with
  | ind n ih =>
      rw [Numeral.digits]
      split
      · next small =>
          have : ∀ m, m < 10 → 0 < m → Numeral.digitChar m ≠ '0' := by decide
          simpa using this n small positive
      · next large =>
          rw [head?_digits_append]
          exact ih (n / 10) (by omega) (by omega)

theorem readDigits_digits (n : Nat) {rest : List Char} (ends : Ends rest) :
    readDigits (Numeral.digits n ++ rest) = some (Numeral.digits n, rest) := by
  have digitsOnly := Numeral.all_isDigit_digits n
  rw [List.all_eq_true] at digitsOnly
  have stops : rest.takeWhile Numeral.isDigit = [] ∧ rest.dropWhile Numeral.isDigit = rest := by
    cases rest with
    | nil => simp
    | cons c rest => simp [(ends c rfl).1]
  rw [readDigits, List.takeWhile_append_of_pos digitsOnly, List.dropWhile_append_of_pos digitsOnly,
    stops.1, stops.2, List.append_nil]
  split
  · next h => exact absurd h (Numeral.digits_ne_nil n)
  · rfl

theorem readWhole_digits (n : Nat) {rest : List Char} (ends : Ends rest) :
    readWhole (Numeral.digits n ++ rest) = some (Numeral.digits n, rest) := by
  by_cases zero : n = 0
  · have form : Numeral.digits n = ['0'] := by rw [zero]; decide +kernel
    rw [form]
    cases rest with
    | nil => rfl
    | cons c rest => simp [readWhole, (ends c rfl).1]
  · have first := head?_digits_ne_zero (Nat.pos_of_ne_zero zero)
    rw [readWhole.eq_def]
    split
    · next h =>
        rw [← head?_digits_append n rest, h] at first
        exact absurd rfl first
    · exact readDigits_digits n ends

theorem readUnsigned_digits (negative : Bool) (n : Nat) {rest : List Char} (ends : Ends rest) :
    readUnsigned negative (Numeral.digits n ++ rest) =
      some (⟨negative, Numeral.digits n, none, none⟩, rest) := by
  have noFraction : readFraction rest = some (none, rest) := by
    rw [readFraction.eq_def]
    split
    · exact absurd rfl (ends '.' rfl).2.1
    · rfl
  have noExponent : readExponent rest = some (none, rest) := by
    cases rest with
    | nil => rfl
    | cons c rest => simp [readExponent, (ends c rfl).2.2]
  simp [readUnsigned, readWhole_digits n ends, noFraction, noExponent]

theorem readNumber_integer (n : Int) {rest : List Char} (ends : Ends rest) :
    readNumber (Numeral.integer n ++ rest) = some (numeral n, rest) := by
  unfold Numeral.integer numeral
  split
  · next negative => simp [readNumber, readUnsigned_digits _ _ ends, negative]
  · next positive =>
      rw [readNumber.eq_def]
      split
      · next h =>
          have digit : Numeral.isDigit '-' = true := by
            have inside : '-' ∈ Numeral.digits n.natAbs := by
              cases form : Numeral.digits n.natAbs with
              | nil => exact absurd form (Numeral.digits_ne_nil _)
              | cons d ds =>
                  rw [form, List.cons_append] at h
                  simp [(List.cons.inj h).1]
            exact List.all_eq_true.mp (Numeral.all_isDigit_digits _) _ inside
          exact absurd digit (by decide)
      · rw [readUnsigned_digits _ _ ends]
        simp [positive]

/-! ### Values -/

/-- What a text of a value starts with: no gap, and no bracket that closes. -/
theorem chars_form {depth : Nat} {v : Json} (exact : isExact depth v = true) :
    ∃ c tail, v.chars = c :: tail ∧ isGap c = false ∧ c ≠ ']' ∧ c ≠ '}' := by
  have digit : ∀ c, Numeral.isDigit c = true → isGap c = false ∧ c ≠ ']' ∧ c ≠ '}' := by
    intro c isDigit
    refine ⟨?_, ?_, ?_⟩
    · rw [← Bool.not_eq_true]
      intro gap
      simp only [isGap, Bool.or_eq_true, beq_iff_eq] at gap
      rcases gap with ((rfl | rfl) | rfl) | rfl <;> exact absurd isDigit (by decide)
    · rintro rfl
      exact absurd isDigit (by decide)
    · rintro rfl
      exact absurd isDigit (by decide)
  match v with
  | .null => exact ⟨_, _, rfl, by decide, by decide, by decide⟩
  | .bool true => exact ⟨_, _, rfl, by decide, by decide, by decide⟩
  | .bool false => exact ⟨_, _, rfl, by decide, by decide, by decide⟩
  | .float x => simp [isExact] at exact
  | .string s => exact ⟨_, _, rfl, by decide, by decide, by decide⟩
  | .array [] => exact ⟨_, _, rfl, by decide, by decide, by decide⟩
  | .array (item :: rest) => exact ⟨_, _, rfl, by decide, by decide, by decide⟩
  | .object [] => exact ⟨_, _, rfl, by decide, by decide, by decide⟩
  | .object (member :: rest) => exact ⟨_, _, rfl, by decide, by decide, by decide⟩
  | .int n =>
      unfold chars Numeral.integer
      split
      · exact ⟨_, _, rfl, by decide, by decide, by decide⟩
      · cases form : Numeral.digits n.natAbs with
        | nil => exact absurd form (Numeral.digits_ne_nil _)
        | cons d ds =>
            have inside : d ∈ Numeral.digits n.natAbs := by simp [form]
            exact ⟨d, ds, rfl,
              digit d (List.all_eq_true.mp (Numeral.all_isDigit_digits _) d inside)⟩

theorem skipGap_cons {c : Char} (tail : List Char) (h : isGap c = false) :
    skipGap (c :: tail) = c :: tail := by
  simp [skipGap, h]

theorem skipGap_chars {depth : Nat} {v : Json} (exact : isExact depth v = true)
    (rest : List Char) : skipGap (v.chars ++ rest) = v.chars ++ rest := by
  obtain ⟨c, tail, form, noGap, -⟩ := chars_form exact
  rw [form, List.cons_append, skipGap_cons _ noGap]

theorem ends_cons {c : Char} (rest : List Char)
    (h : Numeral.isDigit c = false ∧ c ≠ '.' ∧ c ≠ 'e' ∧ c ≠ 'E') : Ends (c :: rest) := by
  intro d isHead
  rw [List.head?_cons, Option.mem_some_iff] at isHead
  exact isHead ▸ h

theorem ends_itemChars (items : List Json) (rest : List Char) : Ends (itemChars items ++ rest) := by
  cases items with
  | nil => exact ends_cons _ (by decide)
  | cons item items => exact ends_cons _ (by decide)

theorem ends_memberChars (members : List (String × Json)) (rest : List Char) :
    Ends (memberChars members ++ rest) := by
  cases members with
  | nil => exact ends_cons _ (by decide)
  | cons member members => exact ends_cons _ (by decide)

theorem quote_append (s : String) (rest : List Char) :
    quote s ++ rest = '"' :: (escaped s ++ '"' :: rest) := by
  simp [quote, escaped]

theorem integer_form (n : Int) :
    ∃ c tail, Numeral.integer n = c :: tail ∧ (c = '-' ∨ Numeral.isDigit c = true) := by
  unfold Numeral.integer
  split
  · exact ⟨_, _, rfl, .inl rfl⟩
  · cases form : Numeral.digits n.natAbs with
    | nil => exact absurd form (Numeral.digits_ne_nil _)
    | cons d ds =>
        have inside : d ∈ Numeral.digits n.natAbs := by simp [form]
        exact ⟨d, ds, rfl, .inr (List.all_eq_true.mp (Numeral.all_isDigit_digits _) d inside)⟩

theorem readValue_integer {calls : Nat} (n : Int) {rest : List Char} (ends : Ends rest) :
    readValue (calls + 1) (Numeral.integer n ++ rest) = some (number (numeral n), rest) := by
  obtain ⟨c, tail, form, first⟩ := integer_form n
  have other : c ≠ 'n' ∧ c ≠ 't' ∧ c ≠ 'f' ∧ c ≠ '"' ∧ c ≠ '[' ∧ c ≠ '{' := by
    refine ⟨?_, ?_, ?_, ?_, ?_, ?_⟩ <;>
      (rintro rfl; exact absurd first (by decide))
  have read := readNumber_integer n ends
  rw [form, List.cons_append] at read ⊢
  unfold readValue
  split
  · next h => exact absurd (List.cons.inj h).1 other.1
  · next h => exact absurd (List.cons.inj h).1 other.2.1
  · next h => exact absurd (List.cons.inj h).1 other.2.2.1
  · next h => exact absurd (List.cons.inj h).1 other.2.2.2.1
  · next h => exact absurd (List.cons.inj h).1 other.2.2.2.2.1
  · next h => exact absurd (List.cons.inj h).1 other.2.2.2.2.2
  · rw [read]
    rfl

theorem readValue_string {calls : Nat} (s : String) (rest : List Char) :
    readValue (calls + 1) (quote s ++ rest) = some (string (escaped s), rest) := by
  simp [quote_append, readValue, readString_escaped]

/-- The opening bracket of an array, its first item and the others. -/
theorem readValue_items {calls : Nat} {start rest after : List Char} {item : Source}
    {items : List Source} {c : Char} {tail : List Char} (form : start = c :: tail)
    (noGap : isGap c = false) (opens : c ≠ ']')
    (first : readValue calls start = some (item, rest))
    (others : readItems calls rest = some (items, after)) :
    readValue (calls + 1) ('[' :: start) = some (array (item :: items), after) := by
  have gap : skipGap start = start := by rw [form, skipGap_cons _ noGap]
  simp only [readValue, gap]
  split
  · exact absurd (List.cons.inj form).1.symm opens
  · simp [first, others]

/-- The opening brace of an object, its first member and the others. -/
theorem readValue_members {calls : Nat} {start rest after : List Char}
    {member : List Char × Source} {members : List (List Char × Source)} {c : Char}
    {tail : List Char} (form : start = c :: tail) (noGap : isGap c = false) (opens : c ≠ '}')
    (first : readMember calls start = some (member, rest))
    (others : readMembers calls rest = some (members, after)) :
    readValue (calls + 1) ('{' :: start) = some (object (member :: members), after) := by
  have gap : skipGap start = start := by rw [form, skipGap_cons _ noGap]
  simp only [readValue, gap]
  split
  · exact absurd (List.cons.inj form).1.symm opens
  · simp [first, others]

theorem readItems_cons {calls : Nat} {start rest after : List Char} {item : Source}
    {items : List Source} (gap : skipGap start = start)
    (first : readValue calls start = some (item, rest))
    (others : readItems calls rest = some (items, after)) :
    readItems (calls + 1) (',' :: start) = some (item :: items, after) := by
  rw [readItems, skipGap_cons _ (by decide)]
  simp [gap, first, others]

theorem readMember_cons {calls : Nat} {start after : List Char} {value : Source} (name : String)
    (gap : skipGap start = start) (read : readValue calls start = some (value, after)) :
    readMember (calls + 1) (quote name ++ ':' :: start) = some ((escaped name, value), after) := by
  rw [quote_append, readMember]
  simp [readString_escaped, skipGap_cons, gap, read, show isGap ':' = false by decide]

theorem readMembers_cons {calls : Nat} {start rest after : List Char}
    {member : List Char × Source} {members : List (List Char × Source)}
    (gap : skipGap start = start) (first : readMember calls start = some (member, rest))
    (others : readMembers calls rest = some (members, after)) :
    readMembers (calls + 1) (',' :: start) = some (member :: members, after) := by
  rw [readMembers, skipGap_cons _ (by decide)]
  simp [gap, first, others]

mutual

/-- The grammar finds the spelling of a value in front of its text. -/
theorem readValue_chars {depth : Nat} : ∀ (v : Json) (calls : Nat) (rest : List Char),
    isExact depth v = true → v.chars.length ≤ calls → Ends rest →
      readValue calls (v.chars ++ rest) = some (ofValue v, rest)
  | v, 0, rest, exact, bound, _ => by
      obtain ⟨c, tail, form, -⟩ := chars_form exact
      simp [form] at bound
  | .null, calls + 1, rest, _, _, _ => by simp [chars, readValue, ofValue]
  | .bool true, calls + 1, rest, _, _, _ => by simp [chars, readValue, ofValue]
  | .bool false, calls + 1, rest, _, _, _ => by simp [chars, readValue, ofValue]
  | .float x, calls + 1, rest, exact, _, _ => by simp [isExact] at exact
  | .int n, calls + 1, rest, _, _, ends => by
      rw [chars, ofValue, readValue_integer n ends]
  | .string s, calls + 1, rest, _, _, _ => by rw [chars, ofValue, readValue_string]
  | .array [], calls + 1, rest, _, _, _ => by
      simp [chars, readValue, skipGap_cons, ofValue, ofValues, show isGap ']' = false by decide]
  | .array (item :: items), calls + 1, rest, exact, bound, _ => by
      simp only [isExact, areExact, Bool.and_eq_true] at exact
      simp only [chars, List.length_cons, List.length_append] at bound
      obtain ⟨c, tail, form, noGap, opens, -⟩ := chars_form exact.2.1
      have first := readValue_chars item calls (itemChars items ++ rest) exact.2.1 (by omega)
        (ends_itemChars items rest)
      have others := readItems_itemChars items calls rest exact.2.2 (by omega)
      rw [chars, List.cons_append, List.append_assoc, ofValue, ofValues]
      exact readValue_items (by rw [form]; rfl) noGap opens first others
  | .object [], calls + 1, rest, _, _, _ => by
      simp [chars, readValue, skipGap_cons, ofValue, ofNamed, show isGap '}' = false by decide]
  | .object ((name, value) :: members), calls + 1, rest, exact, bound, _ => by
      simp only [isExact, areExactMembers, Bool.and_eq_true] at exact
      simp only [chars, List.length_cons, List.length_append] at bound
      have others := readMembers_memberChars members calls rest exact.2.2 (by omega)
      have first := readMember_chars name value calls (memberChars members ++ rest) exact.2.1
        (by omega) (ends_memberChars members rest)
      have form : quote name ++ ':' :: (value.chars ++ (memberChars members ++ rest)) =
          '"' :: (escaped name ++ '"' :: ':' :: (value.chars ++ (memberChars members ++ rest))) :=
        quote_append name _
      rw [chars, ofValue, ofNamed]
      simp only [List.cons_append, List.append_assoc]
      exact readValue_members form (by decide) (by decide) first others
termination_by structural _ calls => calls

theorem readItems_itemChars {depth : Nat} : ∀ (items : List Json) (calls : Nat)
    (rest : List Char), areExact depth items = true → (itemChars items).length ≤ calls →
      readItems calls (itemChars items ++ rest) = some (ofValues items, rest)
  | [], 0, rest, _, bound => by simp [itemChars] at bound
  | [], calls + 1, rest, _, _ => by
      simp [itemChars, readItems, skipGap_cons, ofValues, show isGap ']' = false by decide]
  | item :: items, 0, rest, _, bound => by simp [itemChars] at bound
  | item :: items, calls + 1, rest, exact, bound => by
      simp only [areExact, Bool.and_eq_true] at exact
      simp only [itemChars, List.length_cons, List.length_append] at bound
      have first := readValue_chars item calls (itemChars items ++ rest) exact.1 (by omega)
        (ends_itemChars items rest)
      have others := readItems_itemChars items calls rest exact.2 (by omega)
      rw [itemChars, List.cons_append, List.append_assoc, ofValues]
      exact readItems_cons (skipGap_chars exact.1 _) first others
termination_by structural _ calls => calls

theorem readMember_chars {depth : Nat} : ∀ (name : String) (value : Json) (calls : Nat)
    (rest : List Char), isExact depth value = true →
      (quote name).length + (value.chars.length + 1) ≤ calls → Ends rest →
      readMember calls (quote name ++ ':' :: (value.chars ++ rest)) =
        some ((escaped name, ofValue value), rest)
  | name, value, 0, rest, _, bound, _ => by simp [quote] at bound
  | name, value, calls + 1, rest, exact, bound, ends => by
      have read := readValue_chars value calls rest exact (by simp [quote] at bound; omega) ends
      exact readMember_cons name (skipGap_chars exact _) read
termination_by structural _ _ calls => calls

theorem readMembers_memberChars {depth : Nat} : ∀ (members : List (String × Json)) (calls : Nat)
    (rest : List Char), areExactMembers depth members = true →
      (memberChars members).length ≤ calls →
      readMembers calls (memberChars members ++ rest) = some (ofNamed members, rest)
  | [], 0, rest, _, bound => by simp [memberChars] at bound
  | [], calls + 1, rest, _, _ => by
      simp [memberChars, readMembers, skipGap_cons, ofNamed, show isGap '}' = false by decide]
  | member :: members, 0, rest, _, bound => by simp [memberChars] at bound
  | (name, value) :: members, calls + 1, rest, exact, bound => by
      simp only [areExactMembers, Bool.and_eq_true] at exact
      simp only [memberChars, List.length_cons, List.length_append] at bound
      have first := readMember_chars name value calls (memberChars members ++ rest) exact.1
        (by omega) (ends_memberChars members rest)
      have others := readMembers_memberChars members calls rest exact.2 (by omega)
      rw [memberChars, ofNamed]
      simp only [List.cons_append, List.append_assoc]
      refine readMembers_cons ?_ first others
      rw [quote_append, skipGap_cons _ (by decide)]
termination_by structural _ calls => calls

end

end Source

end EditorBridge.Json
