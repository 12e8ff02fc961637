import EditorBridge.Proofs.Text.Utf8
import EditorBridge.Uri.Host

/-!
# How this machine is named

In the schemes of the web this machine is the one domain `localhost`. It may be spelled with letters
of either case or in disguise, with escapes, and with characters that do not count, but not with
anything that has a meaning around a host (`notMem_of_spellsLocal`). No other host names this
machine (`cases_of_ofDomain?`). In other schemes this machine is named by the very letters, or by no
host at all (`cases_of_ofOpaque?`).
-/

namespace EditorBridge.Uri

namespace Percent

/-- A character that is neither a percent sign nor a digit is read for itself, whatever stands
around it. -/
theorem decode_append_mark {c : Char} (sign : c ≠ '%') (noDigit : Text.Hex.value? c = none)
    (front back : List Char) :
    decode (front ++ c :: back) = decode front ++ (String.utf8EncodeChar c ++ decode back) := by
  -- A percent sign in front of the character, or one place before, starts no escape.
  have short {rest : List Char} (few : ∀ high low more, rest ≠ high :: low :: more) :
      decode ('%' :: (rest ++ c :: back)) =
        String.utf8EncodeChar '%' ++ decode (rest ++ c :: back) := by
    have high (low : Char) : byte? c low = none := by rw [byte?, noDigit, Option.bind_none]
    have low (high : Char) : byte? high c = none := by
      simp [byte?, noDigit]
    rcases rest with _ | ⟨x, _ | ⟨y, more⟩⟩
    · cases back with
      | nil => rfl
      | cons d back =>
          rw [List.nil_append, decode, high]
          rfl
    · rw [List.singleton_append, decode, low]
      rfl
    · exact absurd rfl (few x y more)
  fun_induction decode front with
  | case1 => exact decode_cons_of_ne back sign
  | case2 high low rest b escaped ih =>
      rw [List.cons_append, List.cons_append, List.cons_append, decode, escaped]
      exact congrArg (b :: ·) ih
  | case3 high low rest literal ih =>
      rw [List.cons_append, List.cons_append, List.cons_append, decode, literal]
      exact congrArg (37 :: ·) ih
  | case4 d rest other ih =>
      rw [List.cons_append, List.append_assoc, ← ih]
      by_cases percent : d = '%'
      · subst percent
        exact short fun high low more form => other high low more rfl form
      · exact decode_cons_of_ne _ percent

end Percent

namespace Host

/-- Whether a text is read as the name of this machine when domains are compared. -/
def SpellsLocal (host : List Char) : Prop :=
  (Text.Utf8.decodeLossy (Percent.decode host)).flatMap Text.Letter.plain = localName

/-- What has a meaning around a host. -/
def marks : List Char := ['[', ']', ':', '@']

theorem notMem_localName {c : Char} (mark : c ∈ marks) : c ∉ localName := by
  simp only [marks, List.mem_cons, List.not_mem_nil, or_false] at mark
  rcases mark with rfl | rfl | rfl | rfl <;> decide

/-- A text with such a character does not spell the name. -/
theorem notMem_of_spellsLocal {host : List Char} {c : Char} (spells : SpellsLocal host)
    (mark : c ∈ marks) : c ∉ host := by
  have facts : ∀ c ∈ marks, c ≠ '%' ∧ Text.Hex.value? c = none ∧
      (∃ b : UInt8, b < 0x80 ∧ String.utf8EncodeChar c = [b] ∧ Char.ofNat b.toNat = c) ∧
        Text.Letter.plain c = [c] := by
    simp only [marks, List.forall_mem_cons, List.not_mem_nil, false_implies, implies_true, and_true]
    refine ⟨?_, ?_, ?_, ?_⟩
    · exact ⟨by decide, by decide, ⟨91, by decide⟩, by decide⟩
    · exact ⟨by decide, by decide, ⟨93, by decide⟩, by decide⟩
    · exact ⟨by decide, by decide, ⟨58, by decide⟩, by decide⟩
    · exact ⟨by decide, by decide, ⟨64, by decide⟩, by decide⟩
  obtain ⟨sign, noDigit, ⟨b, small, bytes, same⟩, plain⟩ := facts c mark
  have absent := notMem_localName mark
  intro inside
  obtain ⟨front, back, rfl⟩ := List.append_of_mem inside
  rw [SpellsLocal, Percent.decode_append_mark sign noDigit, bytes, List.singleton_append,
    Text.Utf8.decodeLossy_append_ascii small, same, List.flatMap_append, List.flatMap_cons,
    plain] at spells
  rw [← spells] at absent
  exact absent (by simp)

theorem spellsLocal_ne_nil {host : List Char} (spells : SpellsLocal host) : host ≠ [] := by
  rintro rfl
  rw [SpellsLocal, Percent.decode, Text.Utf8.decodeLossy, Text.Utf8.pieces] at spells
  cases spells

/-- An address in brackets is that of another machine. -/
theorem eq_elsewhere_of_ofBracketed? {s : List Char} {host : Host}
    (read : ofBracketed? s = some host) : host = .elsewhere := by
  rw [ofBracketed?] at read
  split at read
  · split at read
    · exact (Option.some.inj read).symm
    · cases read
  · cases read

/-- In the schemes of the web a host that is not another machine spells the name of this one. -/
theorem cases_of_ofDomain? {s : List Char} {host : Host} (read : ofDomain? s = some host) :
    host = .elsewhere ∨ host = .here ∧ SpellsLocal s := by
  unfold ofDomain? at read
  split at read
  · exact .inl (eq_elsewhere_of_ofBracketed? read)
  · dsimp only at read
    split at read
    · cases read
    · split at read
      · split at read
        · exact .inl (Option.some.inj read).symm
        · cases read
      · split at read
        · next spelled => exact .inr ⟨(Option.some.inj read).symm, spelled⟩
        · exact .inl (Option.some.inj read).symm

theorem ofDomain?_of_spellsLocal {host : List Char} (spells : SpellsLocal host) :
    ofDomain? host = some .here := by
  unfold ofDomain?
  split
  · next rest => exact absurd List.mem_cons_self (notMem_of_spellsLocal spells (by decide))
  · dsimp only
    rw [SpellsLocal] at spells
    rw [spells, if_neg (by decide), if_neg (by decide), if_pos rfl]

/-- In other schemes a host that is not another machine is empty, or the name of this machine. -/
theorem cases_of_ofOpaque? {s : List Char} {host : Host} (read : ofOpaque? s = some host) :
    host = .elsewhere ∨ host = .absent ∧ s = [] ∨ host = .here ∧ s = localName := by
  unfold ofOpaque? at read
  split at read
  · exact .inr (.inl ⟨(Option.some.inj read).symm, rfl⟩)
  · exact .inl (eq_elsewhere_of_ofBracketed? read)
  · split at read
    · cases read
    · split at read
      · next named => exact .inr (.inr ⟨(Option.some.inj read).symm, named⟩)
      · exact .inl (Option.some.inj read).symm

theorem ofOpaque?_localName : ofOpaque? localName = some .here := by
  decide

end Host

end EditorBridge.Uri
