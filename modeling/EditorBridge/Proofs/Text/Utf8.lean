import Mathlib.Data.List.Basic
import EditorBridge.Text.Lines

/-!
# Reading what UTF-8 writes

The bytes of a text give the text back, whichever of the two readers takes them: `decode?_encode`
and `decodeLossy_encode`. Both follow from `next_utf8EncodeChar`, which reads one character. There
are as many bytes as `byteLength` counts, and an ASCII byte is never part of a longer character
(`eq_of_mem_utf8EncodeChar`), so lines may be cut before they are read. Bytes without an ill-formed
part are read in the same way whatever follows them (`decodeLossy_append`), and an ASCII byte is
read as a character of its own among any bytes (`decodeLossy_append_ascii`).
-/

namespace EditorBridge.Text.Utf8

theorem encode_cons (c : Char) (s : List Char) :
    encode (c :: s) = String.utf8EncodeChar c ++ encode s := by
  simp [encode]

theorem encode_append (s t : List Char) : encode (s ++ t) = encode s ++ encode t := by
  simp [encode]

theorem length_encode (s : List Char) : (encode s).length = byteLength s := by
  induction s with
  | nil => rfl
  | cons c s ih =>
      rw [encode_cons, List.length_append, String.length_utf8EncodeChar, ih, byteLength_cons]

theorem byteLength_append (s t : List Char) :
    byteLength (s ++ t) = byteLength s + byteLength t := by
  rw [← length_encode, encode_append, List.length_append, length_encode, length_encode]

/-! ### One character -/

theorem toNat_ofNat_byte {n : Nat} (small : n < 256) : (UInt8.ofNat n).toNat = n := by
  simp [Nat.mod_eq_of_lt small]

/-- A continuation byte in its range gives six more bits. -/
theorem continuation_succ {n bits x : Nat} {low high : UInt8} {rest : List UInt8}
    (least : low.toNat ≤ x) (most : x ≤ high.toNat) :
    continuation (n + 1) low high bits (UInt8.ofNat x :: rest) =
      continuation n 0x80 0xBF (bits * 64 + (x - 0x80)) rest := by
  have value : (UInt8.ofNat x).toNat = x :=
    toNat_ofNat_byte (Nat.lt_of_le_of_lt most high.toNat_lt)
  have inRange : (low ≤ UInt8.ofNat x && UInt8.ofNat x ≤ high) = true := by
    simp only [Bool.and_eq_true, decide_eq_true_eq, UInt8.le_iff_toNat_le, value]
    exact ⟨least, most⟩
  rw [continuation, if_pos inRange, value]

theorem next_lead_one {lead : Nat} (rest : List UInt8) (most : lead < 0x80) :
    next (UInt8.ofNat lead) rest = (some (Char.ofNat lead), rest) := by
  unfold next
  simp only [toNat_ofNat_byte (show lead < 256 by omega)]
  rw [if_pos most]

theorem next_lead_two {lead : Nat} (rest : List UInt8) (least : 0xC2 ≤ lead)
    (most : lead < 0xE0) :
    next (UInt8.ofNat lead) rest = continuation 1 0x80 0xBF (lead - 0xC0) rest := by
  unfold next
  simp only [toNat_ofNat_byte (show lead < 256 by omega)]
  rw [if_neg (by omega), if_neg (by omega), if_pos most]

theorem next_lead_three {lead : Nat} (rest : List UInt8) (least : 0xE0 ≤ lead)
    (most : lead < 0xF0) :
    next (UInt8.ofNat lead) rest =
      continuation 2 (if lead = 0xE0 then 0xA0 else 0x80) (if lead = 0xED then 0x9F else 0xBF)
        (lead - 0xE0) rest := by
  unfold next
  simp only [toNat_ofNat_byte (show lead < 256 by omega), beq_iff_eq]
  rw [if_neg (by omega), if_neg (by omega), if_neg (by omega)]
  by_cases first : lead = 0xE0
  · simp [first]
  · by_cases last : lead = 0xED
    · simp [last]
    · rw [if_neg first, if_neg last, if_pos most, if_neg first, if_neg last]

theorem next_lead_four {lead : Nat} (rest : List UInt8) (least : 0xF0 ≤ lead)
    (most : lead ≤ 0xF4) :
    next (UInt8.ofNat lead) rest =
      continuation 3 (if lead = 0xF0 then 0x90 else 0x80) (if lead = 0xF4 then 0x8F else 0xBF)
        (lead - 0xF0) rest := by
  unfold next
  simp only [toNat_ofNat_byte (show lead < 256 by omega), beq_iff_eq]
  rw [if_neg (by omega), if_neg (by omega), if_neg (by omega), if_neg (by omega),
    if_neg (by omega), if_neg (by omega)]
  by_cases first : lead = 0xF0
  · simp [first]
  · by_cases last : lead = 0xF4
    · simp [last]
    · rw [if_neg first, if_pos (by omega), if_neg first, if_neg last]

/-- The first piece of the bytes of a character is the character. -/
theorem next_utf8EncodeChar (c : Char) (rest : List UInt8) :
    ∃ b bytes, String.utf8EncodeChar c = b :: bytes ∧ next b (bytes ++ rest) = (some c, rest) := by
  have bound : c.val.toNat < 0xD800 ∨ 0xDFFF < c.val.toNat ∧ c.val.toNat < 0x110000 := c.valid
  have same : Char.ofNat c.val.toNat = c := Char.ofNat_toNat c
  unfold String.utf8EncodeChar
  generalize c.val.toNat = v at bound same
  by_cases one : v ≤ 0x7F
  · refine ⟨UInt8.ofNat v, [], by rw [if_pos one], ?_⟩
    rw [next_lead_one _ (by omega), same]
    rfl
  by_cases two : v ≤ 0x7FF
  · refine ⟨UInt8.ofNat (v / 64 % 32 + 0xC0), _, by rw [if_neg one, if_pos two], ?_⟩
    rw [next_lead_two _ (by omega) (by omega)]
    simp only [List.cons_append, List.nil_append]
    have bits : (v / 64 % 32 + 0xC0 - 0xC0) * 64 + (v % 64 + 0x80 - 0x80) = v := by omega
    rw [continuation_succ (by simp) (by simp; omega), continuation, bits, same]
  by_cases three : v ≤ 0xFFFF
  · refine ⟨UInt8.ofNat (v / 4096 % 16 + 0xE0), _,
      by rw [if_neg one, if_neg two, if_pos three], ?_⟩
    rw [next_lead_three _ (by omega) (by omega)]
    simp only [List.cons_append, List.nil_append]
    have bits : ((v / 4096 % 16 + 0xE0 - 0xE0) * 64 + (v / 64 % 64 + 0x80 - 0x80)) * 64 +
        (v % 64 + 0x80 - 0x80) = v := by omega
    -- The range of the second byte keeps out overlong forms and surrogates.
    rw [continuation_succ (by split <;> simp; omega) (by split <;> simp <;> omega),
      continuation_succ (by simp) (by simp; omega), continuation, bits, same]
  · refine ⟨UInt8.ofNat (v / 262144 % 8 + 0xF0), _,
      by rw [if_neg one, if_neg two, if_neg three], ?_⟩
    rw [next_lead_four _ (by omega) (by omega)]
    simp only [List.cons_append, List.nil_append]
    have bits : (((v / 262144 % 8 + 0xF0 - 0xF0) * 64 + (v / 4096 % 64 + 0x80 - 0x80)) * 64 +
        (v / 64 % 64 + 0x80 - 0x80)) * 64 + (v % 64 + 0x80 - 0x80) = v := by omega
    rw [continuation_succ (by split <;> simp; omega) (by split <;> simp <;> omega),
      continuation_succ (by simp) (by simp; omega), continuation_succ (by simp) (by simp; omega),
      continuation, bits, same]

/-! ### Texts -/

theorem pieces_encode (s : List Char) : pieces (encode s) = s.map some := by
  induction s with
  | nil => simp [encode, pieces]
  | cons c s ih =>
      obtain ⟨b, bytes, form, found⟩ := next_utf8EncodeChar c (encode s)
      rw [encode_cons, form, List.cons_append, pieces, found, ih]
      rfl

/-- The bytes of a text are well-formed, and they are the bytes of this text. -/
theorem decode?_encode (s : List Char) : decode? (encode s) = some s := by
  have all : ∀ s : List Char, (s.map some).mapM id = some s := by
    intro s
    induction s with
    | nil => rfl
    | cons c s ih => rw [List.map_cons, List.mapM_cons, ih]; rfl
  rw [decode?, pieces_encode, all]

/-- The reader that never fails gives a text back, too. -/
theorem decodeLossy_encode (s : List Char) : decodeLossy (encode s) = s := by
  simp [decodeLossy, pieces_encode, Function.comp_def]

/-! ### ASCII bytes -/

/-- A byte below 80 (hexadecimal) is all that there is of a character. -/
theorem eq_of_mem_utf8EncodeChar {c : Char} {b : UInt8} (small : b.toNat < 0x80)
    (inside : b ∈ String.utf8EncodeChar c) :
    String.utf8EncodeChar c = [b] ∧ c = Char.ofNat b.toNat := by
  have same : Char.ofNat c.val.toNat = c := Char.ofNat_toNat c
  have great : ∀ n, 0x80 ≤ n → n < 256 → b ≠ UInt8.ofNat n := by
    intro n least most form
    rw [form, toNat_ofNat_byte most] at small
    omega
  unfold String.utf8EncodeChar at inside ⊢
  generalize c.val.toNat = v at inside same ⊢
  dsimp only at inside ⊢
  by_cases one : v ≤ 0x7F
  · rw [if_pos one, List.mem_singleton] at inside
    rw [if_pos one, inside, toNat_ofNat_byte (show v < 256 by omega), same]
    exact ⟨rfl, rfl⟩
  · rw [if_neg one] at inside
    exfalso
    revert inside
    by_cases two : v ≤ 0x7FF
    · rw [if_pos two]
      simp only [List.mem_cons, List.not_mem_nil, or_false, not_or, imp_false]
      refine ⟨great _ ?_ ?_, great _ ?_ ?_⟩ <;> omega
    by_cases three : v ≤ 0xFFFF
    · rw [if_neg two, if_pos three]
      simp only [List.mem_cons, List.not_mem_nil, or_false, not_or, imp_false]
      refine ⟨great _ ?_ ?_, great _ ?_ ?_, great _ ?_ ?_⟩ <;> omega
    · rw [if_neg two, if_neg three]
      simp only [List.mem_cons, List.not_mem_nil, or_false, not_or, imp_false]
      refine ⟨great _ ?_ ?_, great _ ?_ ?_, great _ ?_ ?_, great _ ?_ ?_⟩ <;> omega

/-- A text whose bytes end in an ASCII byte ends in the character of that byte. -/
theorem eq_concat_of_encode {s : List Char} {front : List UInt8} {b : UInt8}
    (small : b.toNat < 0x80) (bytes : encode s = front ++ [b]) :
    ∃ t, s = t ++ [Char.ofNat b.toNat] ∧ encode t = front := by
  rcases List.eq_nil_or_concat' s with rfl | ⟨t, c, rfl⟩
  · simp [encode] at bytes
  · rw [encode_append, encode_cons, show encode [] = [] from rfl, List.append_nil] at bytes
    have filled : String.utf8EncodeChar c ≠ [] := by
      obtain ⟨first, rest, form, -⟩ := next_utf8EncodeChar c []
      simp [form]
    obtain ⟨others, last, form⟩ := (List.eq_nil_or_concat' _).resolve_left filled
    rw [form, ← List.append_assoc] at bytes
    obtain rfl : last = b := by simpa using (List.append_inj' bytes rfl).2
    obtain ⟨alone, rfl⟩ := eq_of_mem_utf8EncodeChar small (c := c) (by simp [form])
    refine ⟨t, rfl, ?_⟩
    rw [form] at alone
    obtain rfl : others = [] := by simpa using alone
    simpa using (List.append_inj' bytes rfl).1

theorem lineFeed_notMem_encode {s : List Char} (h : '\n' ∉ s) : (10 : UInt8) ∉ encode s := by
  rw [encode, List.mem_flatMap]
  rintro ⟨c, inside, byte⟩
  obtain ⟨-, rfl⟩ := eq_of_mem_utf8EncodeChar (by decide) byte
  exact h inside

/-! ### Parts of a byte sequence -/

/-- Whether a character that is found at the front of a byte sequence is found whatever follows. -/
def Steady (f : List UInt8 → Option Char × List UInt8) : Prop :=
  ∀ s c, (f s).1 = some c → ∀ more, f (s ++ more) = (some c, (f s).2 ++ more)

theorem steady_continuation (n : Nat) (low high : UInt8) (bits : Nat) :
    Steady (continuation n low high bits) := by
  intro s c whole more
  induction n generalizing low high bits s with
  | zero =>
      obtain rfl := Option.some.inj whole
      rfl
  | succ n ih =>
      cases s with
      | nil => cases whole
      | cons b rest =>
          rw [continuation] at whole
          rw [List.cons_append, continuation, continuation]
          split at whole
          · next inRange =>
              rw [if_pos inRange, if_pos inRange]
              exact ih 0x80 0xBF _ rest whole
          · cases whole

theorem Steady.ite {f g : List UInt8 → Option Char × List UInt8} (p : Prop) [Decidable p]
    (first : Steady f) (second : Steady g) : Steady fun s => if p then f s else g s := by
  by_cases here : p
  · simpa only [if_pos here] using first
  · simpa only [if_neg here] using second

theorem steady_next (b : UInt8) : Steady (next b) := by
  have ill : Steady fun rest => (none, rest) := nofun
  have one : Steady fun rest => (some (Char.ofNat b.toNat), rest) := by
    intro s c whole more
    exact congrArg (·, s ++ more) whole
  have more {n bits : Nat} {low high : UInt8} : Steady (continuation n low high bits) :=
    steady_continuation n low high bits
  exact one.ite _ (ill.ite _ (more.ite _ (more.ite _ (more.ite _ (more.ite _ (more.ite _
    (more.ite _ (more.ite _ ill))))))))

theorem pieces_append {s : List UInt8} (whole : ∀ piece ∈ pieces s, piece ≠ none)
    (more : List UInt8) : pieces (s ++ more) = pieces s ++ pieces more := by
  fun_induction pieces s with
  | case1 => rfl
  | case2 b rest ih =>
      obtain ⟨c, first⟩ := Option.ne_none_iff_exists'.mp (whole _ List.mem_cons_self)
      rw [List.cons_append, pieces, steady_next b rest c first, List.cons_append, first]
      rw [ih fun piece inside => whole piece (List.mem_cons_of_mem _ inside)]

/-- Bytes without an ill-formed part are read on their own, whatever follows them. -/
theorem decodeLossy_append {s : List UInt8} (whole : '\uFFFD' ∉ decodeLossy s)
    (more : List UInt8) : decodeLossy (s ++ more) = decodeLossy s ++ decodeLossy more := by
  have all : ∀ piece ∈ pieces s, piece ≠ none := by
    rintro piece inside rfl
    exact whole (List.mem_map.mpr ⟨none, inside, rfl⟩)
  rw [decodeLossy, pieces_append all, List.map_append]
  rfl

/-! ### ASCII bytes in a byte sequence -/

/-- Whether a reader stops in front of a byte, and finds what it finds where the input ends. -/
def HaltsAt (b : UInt8) (f : List UInt8 → Option Char × List UInt8) : Prop :=
  ∀ s rest, f (s ++ b :: rest) = ((f s).1, (f s).2 ++ b :: rest)

theorem haltsAt_continuation {b low : UInt8} (less : b < low) (least : b < 0x80) (n : Nat)
    (high : UInt8) (bits : Nat) : HaltsAt b (continuation n low high bits) := by
  intro s rest
  induction n generalizing low high bits s with
  | zero => rfl
  | succ n ih =>
      cases s with
      | nil =>
          have outside : ¬ (low ≤ b && b ≤ high) = true := by
            rw [Bool.and_eq_true, decide_eq_true_eq, not_and]
            exact fun inside => absurd less (UInt8.not_lt.mpr inside)
          rw [List.nil_append, continuation.eq_def]
          exact if_neg outside
      | cons c s =>
          rw [List.cons_append, continuation, continuation]
          split
          · exact ih least 0xBF _ s
          · rfl

theorem HaltsAt.ite {b : UInt8} {f g : List UInt8 → Option Char × List UInt8} (p : Prop)
    [Decidable p] (first : HaltsAt b f) (second : HaltsAt b g) :
    HaltsAt b fun s => if p then f s else g s := by
  by_cases here : p
  · simpa only [if_pos here] using first
  · simpa only [if_neg here] using second

theorem haltsAt_next {b : UInt8} (small : b < 0x80) (lead : UInt8) : HaltsAt b (next lead) := by
  have one (piece : Option Char) : HaltsAt b fun rest => (piece, rest) := fun _ _ => rfl
  have more {n bits : Nat} {low high : UInt8} (least : 0x80 ≤ low) :
      HaltsAt b (continuation n low high bits) :=
    haltsAt_continuation (UInt8.lt_of_lt_of_le small least) small n high bits
  exact (one _).ite _ ((one _).ite _ ((more (by decide)).ite _ ((more (by decide)).ite _
    ((more (by decide)).ite _ ((more (by decide)).ite _ ((more (by decide)).ite _
      ((more (by decide)).ite _ ((more (by decide)).ite _ (one _)))))))))

/-- An ASCII byte is a character of its own, whatever stands around it. -/
theorem decodeLossy_append_ascii {b : UInt8} (small : b < 0x80) (s rest : List UInt8) :
    decodeLossy (s ++ b :: rest) =
      decodeLossy s ++ Char.ofNat b.toNat :: decodeLossy rest := by
  have alone : next b rest = (some (Char.ofNat b.toNat), rest) := by
    have lead := next_lead_one rest (UInt8.lt_iff_toNat_lt.mp small)
    rwa [UInt8.ofNat_toNat] at lead
  have cut : pieces (s ++ b :: rest) = pieces s ++ some (Char.ofNat b.toNat) :: pieces rest := by
    fun_induction pieces s with
    | case1 => rw [List.nil_append, pieces, alone, List.nil_append]
    | case2 lead s ih =>
        rw [List.cons_append, pieces, haltsAt_next small lead s rest, ih, List.cons_append]
  rw [decodeLossy, cut, List.map_append]
  rfl

end EditorBridge.Text.Utf8
