import EditorBridge.Json.Reader
import EditorBridge.Proofs.Json.Spelling

/-!
# Reading what the printer writes

The text of a value means the value with the members of every object in normal form, provided that
the value is exact: `ofChars?_chars`, and `parse?_render` for strings.
-/

namespace EditorBridge.Json

namespace Source

/-! ### Strings -/

theorem unescape_plain {done rest : List Char} {c : Char} (notSlash : c ≠ '\\') :
    unescape done (c :: rest) = unescape (c :: done) rest := by
  conv => lhs; unfold unescape
  split
  · next h => cases h
  · next h => exact absurd (List.cons.inj h).1 notSlash
  · next h => exact absurd (List.cons.inj h).1 notSlash
  · next h =>
      obtain ⟨rfl, rfl⟩ := List.cons.inj h
      rfl

/-- Four hexadecimal digits that are no half of a surrogate pair stand for one character. -/
theorem unescape_unit {done rest : List Char} {a b c d : Char} {unit : Nat}
    (value : Text.Hex.ofDigits [a, b, c, d] = unit) (small : unit < 0xD800) :
    unescape done ('\\' :: 'u' :: a :: b :: c :: d :: rest) =
      unescape (Char.ofNat unit :: done) rest := by
  conv => lhs; unfold unescape
  simp only [value, small, decide_true, Bool.true_or, if_true]

theorem unescape_escape (done rest : List Char) (c : Char) :
    unescape done (escape c ++ rest) = unescape (c :: done) rest := by
  unfold escape
  split
  · next same => simp [unescape, shortEscape, same]
  split
  · next same => simp [unescape, shortEscape, same]
  split
  · next same => simp [unescape, shortEscape, same]
  split
  · next same => simp [unescape, shortEscape, same]
  split
  · next same => simp [unescape, shortEscape, same]
  split
  · next same => simp [unescape, shortEscape, same]
  split
  · next same => simp [unescape, shortEscape, same]
  split
  · next control =>
      have unit : Text.Hex.ofDigits
          ['0', '0', Text.Hex.digit (c.toNat / 16), Text.Hex.digit (c.toNat % 16)] = c.toNat := by
        have zero : Text.Hex.value? '0' = some 0 := by decide
        simp only [Text.Hex.ofDigits, List.foldl_cons, List.foldl_nil, zero,
          Text.Hex.value?_digit (show c.toNat / 16 < 16 by omega),
          Text.Hex.value?_digit (show c.toNat % 16 < 16 by omega), Option.getD_some]
        omega
      rw [List.cons_append, List.cons_append, List.cons_append, List.cons_append,
        List.cons_append, List.cons_append, List.nil_append, unescape_unit unit (by omega),
        Char.ofNat_toNat]
  · next notSlash _ _ _ _ _ _ => exact unescape_plain notSlash

/-- A string means what it was written for. -/
theorem text?_escaped (s : String) : text? (escaped s) = some s := by
  have step : ∀ cs done, unescape done (cs.flatMap escape) = some (done.reverse ++ cs) := by
    intro cs
    induction cs with
    | nil => intro done; simp [unescape]
    | cons c cs ih =>
        intro done
        rw [List.flatMap_cons, unescape_escape, ih]
        simp
  rw [text?, escaped, step]
  simp

end Source

/-! ### Integers -/

theorem value?_numeral {n : Int} (least : Int64.minValue.toInt ≤ n) (most : n < UInt64.size) :
    (Source.numeral n).value? = some (.int n) := by
  unfold Source.numeral Spelling.value?
  simp only [Option.isSome_none, Bool.or_self, Bool.false_eq_true, if_false,
    Numeral.ofDigits_digits, decide_eq_true_eq, Bool.or_eq_true]
  split
  · next negative =>
      rw [if_neg (by omega)]
      congr 2
      omega
  · next positive =>
      rw [if_neg (by omega)]
      congr 2
      omega

theorem intBetween?_int {low high n : Int} (least : low ≤ n) (most : n ≤ high) :
    (int n).intBetween? low high = some n := by
  simp [intBetween?, least, most]

theorem int64?_int (n : Int64) : (int n.toInt).int64? = some n := by
  rw [int64?, intBetween?_int n.minValue_le_toInt n.toInt_le, Option.map_some, Int64.ofInt_toInt]

theorem int32?_int (n : Int32) : (int n.toInt).int32? = some n := by
  rw [int32?, intBetween?_int n.minValue_le_toInt n.toInt_le, Option.map_some, Int32.ofInt_toInt]

theorem uint32?_int (n : UInt32) : (int n.toNat).uint32? = some n := by
  have most : (n.toNat : Int) ≤ UInt32.size - 1 := by
    have bound := n.toNat_lt
    have size : (UInt32.size : Int) = 2 ^ 32 := rfl
    omega
  rw [uint32?, intBetween?_int (Int.natCast_nonneg _) most, Option.map_some, Int.toNat_natCast,
    UInt32.ofNat_toNat]

/-! ### Values -/

mutual

/-- The spelling of an exact value means the value in normal form. -/
theorem ofSource_ofValue : ∀ (v : Json) (depth : Nat), isExact depth v = true →
    ofSource depth (Source.ofValue v) = some v.canonical
  | .null, _, _ => by simp [Source.ofValue, ofSource, canonical]
  | .bool _, _, _ => by simp [Source.ofValue, ofSource, canonical]
  | .float _, _, exact => by simp [isExact] at exact
  | .int n, _, exact => by
      simp only [isExact, Bool.and_eq_true, decide_eq_true_eq] at exact
      simp only [Source.ofValue, ofSource, canonical]
      exact value?_numeral exact.1 exact.2
  | .string s, _, _ => by simp [Source.ofValue, ofSource, Source.text?_escaped, canonical]
  | .array items, depth, exact => by
      simp only [isExact, Bool.and_eq_true, bne_iff_ne] at exact
      simp [Source.ofValue, ofSource, exact.1, ofItems_ofValues items _ exact.2, canonical]
  | .object members, depth, exact => by
      simp only [isExact, Bool.and_eq_true, bne_iff_ne] at exact
      simp [Source.ofValue, ofSource, exact.1, ofMembersFrom_ofNamed members _ exact.2, canonical]

theorem ofItems_ofValues : ∀ (items : List Json) (depth : Nat), areExact depth items = true →
    ofItems depth (Source.ofValues items) = some (canonicalItems items)
  | [], _, _ => by simp [Source.ofValues, ofItems, canonicalItems]
  | item :: items, depth, exact => by
      simp only [areExact, Bool.and_eq_true] at exact
      simp [Source.ofValues, ofItems, ofSource_ofValue item depth exact.1,
        ofItems_ofValues items depth exact.2, canonicalItems]

theorem ofMembersFrom_ofNamed : ∀ (members : List (String × Json)) (depth : Nat),
    areExactMembers depth members = true →
    ofMembersFrom depth (Source.ofNamed members) = some (canonicalMembers members)
  | [], _, _ => by simp [Source.ofNamed, ofMembersFrom, canonicalMembers]
  | (name, value) :: members, depth, exact => by
      simp only [areExactMembers, Bool.and_eq_true] at exact
      simp [Source.ofNamed, ofMembersFrom, Source.text?_escaped,
        ofSource_ofValue value depth exact.1, ofMembersFrom_ofNamed members depth exact.2,
        canonicalMembers]

end

/-- The text of an exact value means the value in normal form. -/
theorem ofChars?_chars {v : Json} (exact : isExact maxDepth v = true) :
    ofChars? v.chars = some v.canonical := by
  have read := Source.readValue_chars v (3 * v.chars.length + 3) [] exact (by omega)
    (by intro c h; simp at h)
  have noGap := Source.skipGap_chars exact []
  rw [List.append_nil] at read noGap
  rw [ofChars?, Source.read?, noGap, read]
  simp [Source.skipGap, ofSource_ofValue v maxDepth exact]

theorem parse?_render {v : Json} (exact : isExact maxDepth v = true) :
    parse? v.render = some v.canonical := by
  simp [parse?, render, ofChars?_chars exact]

end EditorBridge.Json
