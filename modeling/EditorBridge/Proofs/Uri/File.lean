import Mathlib.Data.List.TakeWhile
import EditorBridge.Proofs.Text.Path
import EditorBridge.Proofs.Text.Utf8
import EditorBridge.Uri.File

/-!
# Files there and back

The URI of a file leads back to the file: what comes back is the path in its normal form
(`toFile?_ofFile?`). A locator is read in many ways that could harm a path, and none of them finds
anything to do. The characters of a segment are all quiet, so no margin is cut, nothing is taken for
a separator or a query; an escape never stands for a point, so the only segments that are walked up
are the two points themselves; and the slash behind the host starts an empty segment, so no name is
taken for a drive. Only a path that ends like the name of a drive comes back changed.
-/

namespace EditorBridge.Uri

/-! ### The characters of a segment -/

/-- Whether a character is visible and has no meaning in the path of a URI, unless it starts an
escape. -/
def IsQuiet (c : Char) : Prop :=
  0x20 < c.toNat ∧ c ≠ '/' ∧ c ≠ '\\' ∧ c ≠ '?' ∧ c ≠ '#'

instance (c : Char) : Decidable (IsQuiet c) :=
  inferInstanceAs (Decidable (0x20 < c.toNat ∧ c ≠ '/' ∧ c ≠ '\\' ∧ c ≠ '?' ∧ c ≠ '#'))

theorem isPlain_bounds {b : UInt8} (plain : isPlain b = true) :
    0x20 < b.toNat ∧ b.toNat < 0x7F ∧ b.toNat ≠ 35 ∧ b.toNat ≠ 37 ∧ b.toNat ≠ 47 ∧
      b.toNat ≠ 63 ∧ b.toNat ≠ 92 := by
  simp [isPlain, UInt8.le_iff_toNat_le] at plain
  omega

theorem isQuiet_of_isPlain {b : UInt8} (plain : isPlain b = true) :
    IsQuiet (Char.ofNat b.toNat) := by
  have all : ∀ n, n < 0x7F → 0x20 < n ∧ n ≠ 35 ∧ n ≠ 47 ∧ n ≠ 63 ∧ n ≠ 92 →
      IsQuiet (Char.ofNat n) := by decide
  obtain ⟨least, most, hash, -, slash, question, backslash⟩ := isPlain_bounds plain
  exact all b.toNat most ⟨least, hash, slash, question, backslash⟩

theorem isQuiet_upperDigit {n : Nat} (small : n < 16) : IsQuiet (Text.Hex.upperDigit n) := by
  have all : ∀ m, m < 16 → IsQuiet (Text.Hex.upperDigit m) := by decide
  exact all n small

theorem isQuiet_of_mem_segment {name : List Char} {c : Char} (inside : c ∈ segment name) :
    IsQuiet c := by
  rw [segment, Percent.encode, List.mem_flatMap] at inside
  obtain ⟨b, -, here⟩ := inside
  by_cases plain : isPlain b = true
  · rw [if_pos plain, List.mem_singleton] at here
    rw [here]
    exact isQuiet_of_isPlain plain
  · have bound := b.toNat_lt
    rw [if_neg plain, Percent.escape] at here
    simp only [List.mem_cons, List.not_mem_nil, or_false] at here
    rcases here with rfl | rfl | rfl
    · decide
    · exact isQuiet_upperDigit (by omega)
    · exact isQuiet_upperDigit (by omega)

/-! ### The names in segments -/

theorem decode_segment (name : List Char) :
    Percent.decode (segment name) = Text.Utf8.encode name := by
  have kept : ∀ b, isPlain b = true → b.toNat < 0x80 ∧ b.toNat ≠ 37 := by
    intro b plain
    obtain ⟨-, most, -, percent, -⟩ := isPlain_bounds plain
    exact ⟨by omega, percent⟩
  have read := Percent.decode_encode isPlain kept (Text.Utf8.encode name) []
  rwa [List.append_nil, Percent.decode, List.append_nil] at read

/-- Different names make different segments. -/
theorem segment_injective {name other : List Char} (same : segment name = segment other) :
    name = other := by
  have bytes := congrArg Percent.decode same
  rw [decode_segment, decode_segment] at bytes
  rw [← Text.Utf8.decodeLossy_encode name, bytes, Text.Utf8.decodeLossy_encode]

theorem unescapeDots_cons {c : Char} (rest : List Char) (other : c ≠ '%') :
    Locator.unescapeDots (c :: rest) = c :: Locator.unescapeDots rest := by
  conv => lhs; unfold Locator.unescapeDots
  split
  · next h => exact absurd (List.cons.inj h).1 other
  · next h => exact absurd (List.cons.inj h).1 other
  · next h =>
      obtain ⟨rfl, rfl⟩ := List.cons.inj h
      rfl
  · next h => cases h

/-- Only the escape of a point is read as a point. -/
theorem unescapeDots_escape {b : UInt8} (rest : List Char) (other : b ≠ 46) :
    Locator.unescapeDots (Percent.escape b ++ rest) =
      Percent.escape b ++ Locator.unescapeDots rest := by
  have bound := b.toNat_lt
  have value := Percent.byte?_escape b
  have digit : ∀ n, n < 16 → Text.Hex.upperDigit n ≠ '%' := by decide
  have high := digit (b.toNat / 16) (by omega)
  have low := digit (b.toNat % 16) (by omega)
  simp only [Percent.escape, List.cons_append, List.nil_append]
  generalize Text.Hex.upperDigit (b.toNat / 16) = h at value high
  generalize Text.Hex.upperDigit (b.toNat % 16) = l at value low
  rw [← unescapeDots_cons rest low, ← unescapeDots_cons (l :: rest) high]
  conv => lhs; unfold Locator.unescapeDots
  split
  · next form =>
      simp only [List.cons.injEq, true_and] at form
      obtain ⟨rfl, rfl, -⟩ := form
      exact absurd (Option.some.inj value).symm other
  · next form =>
      simp only [List.cons.injEq, true_and] at form
      obtain ⟨rfl, rfl, -⟩ := form
      exact absurd (Option.some.inj value).symm other
  · next form =>
      obtain ⟨rfl, rfl⟩ := List.cons.inj form
      rfl
  · next form => cases form

theorem unescapeDots_segment (name : List Char) :
    Locator.unescapeDots (segment name) = segment name := by
  have all : ∀ bytes : List UInt8,
      Locator.unescapeDots (Percent.encode isPlain bytes) = Percent.encode isPlain bytes := by
    intro bytes
    induction bytes with
    | nil => rfl
    | cons b bytes ih =>
        rw [Percent.encode, List.flatMap_cons, ← Percent.encode]
        by_cases plain : isPlain b = true
        · obtain ⟨-, most, -, percent, -⟩ := isPlain_bounds plain
          have other := Percent.ofNat_ne_percent (show b.toNat < 0x80 by omega) percent
          rw [if_pos plain, List.singleton_append, unescapeDots_cons _ other, ih]
        · have notPoint : b ≠ 46 := by
            rintro rfl
            exact plain (by decide)
          rw [if_neg plain, unescapeDots_escape _ notPoint, ih]
  exact all _

theorem isHere_segment {name : List Char} (proper : name ≠ ['.']) :
    Locator.isHere (segment name) = false := by
  rw [Locator.isHere, unescapeDots_segment, beq_eq_false_iff_ne]
  intro same
  exact proper (segment_injective (same.trans (by decide)))

theorem isAbove_segment {name : List Char} (proper : name ≠ ['.', '.']) :
    Locator.isAbove (segment name) = false := by
  rw [Locator.isAbove, unescapeDots_segment, beq_eq_false_iff_ne]
  intro same
  exact proper (segment_injective (same.trans (by decide)))

theorem segment_ne_nil {name : List Char} (filled : name ≠ []) : segment name ≠ [] := by
  intro same
  exact filled (segment_injective same)

/-! ### The locator of a file -/

theorem ofFile?_eq_some_iff {path uri : String} :
    ofFile? path = some uri ↔ path.toList.head? = some '/' ∧
      uri = String.ofList (filePrefix ++
        '/' :: Text.join '/' ((Text.pathNames path.toList).map segment)) := by
  rw [ofFile?]
  split
  · next rest form =>
      rw [form, Text.pathNames_slash]
      simp [eq_comm]
  · next other =>
      constructor
      · intro found
        cases found
      · rintro ⟨absolute, -⟩
        cases form : path.toList with
        | nil => simp [form] at absolute
        | cons c rest =>
            rw [form, List.head?_cons, Option.some.injEq] at absolute
            exact absurd (absolute ▸ form) (other rest)

theorem strip_of_visible {s : List Char} (visible : ∀ c ∈ s, 0x20 < c.toNat) :
    Locator.strip s = s := by
  have kept : ∀ t : List Char, (∀ c ∈ t, 0x20 < c.toNat) → t.dropWhile Locator.isMargin = t := by
    intro t seen
    cases t with
    | nil => rfl
    | cons c t =>
        have here := seen c List.mem_cons_self
        rw [List.dropWhile_cons_of_neg]
        rw [Locator.isMargin, decide_eq_true_eq]
        omega
  rw [Locator.strip, kept s visible,
    kept s.reverse fun c inside => visible c (List.mem_reverse.mp inside), List.reverse_reverse,
    List.filter_eq_self]
  intro c inside
  have here := visible c inside
  simp only [Bool.and_eq_true, bne_iff_ne]
  refine ⟨⟨?_, ?_⟩, ?_⟩ <;> rintro rfl <;> exact absurd here (by decide)

theorem splitScheme?_file (rest : List Char) :
    Locator.splitScheme? (filePrefix ++ rest) = some ("file".toList, '/' :: '/' :: rest) := rfl

/-- A URI without a host and without blanks is taken apart into its path. -/
theorem ofChars?_file {rest : List Char} (visible : ∀ c ∈ rest, 0x20 < c.toNat) :
    Locator.ofChars? (filePrefix ++ '/' :: rest) =
      some (Locator.ofFilePath .absent ('/' :: rest)) := by
  have all : ∀ c ∈ filePrefix ++ '/' :: rest, 0x20 < c.toNat := by
    intro c inside
    rcases List.mem_append.mp inside with front | later
    · have spelled : filePrefix.all (0x20 < ·.toNat) = true := by decide
      exact of_decide_eq_true (List.all_eq_true.mp spelled c front)
    · rcases List.mem_cons.mp later with rfl | later
      · decide
      · exact visible c later
  rw [Locator.ofChars?, strip_of_visible all, splitScheme?_file, Option.bind_some]
  rfl

theorem visible_join_segment {names : List (List Char)} :
    ∀ c ∈ Text.join '/' (names.map segment), 0x20 < c.toNat := by
  intro c inside
  rcases Text.mem_join inside with rfl | ⟨part, found, here⟩
  · decide
  · obtain ⟨name, -, rfl⟩ := List.mem_map.mp found
    exact (isQuiet_of_mem_segment here).1

theorem walk_plain {done segments : List (List Char)} (started : done ≠ [])
    (plain : ∀ s ∈ segments, Locator.isAbove s = false ∧ Locator.isHere s = false) :
    Locator.walk true done segments = (done.reverse ++ segments, false) := by
  induction segments generalizing done with
  | nil => simp [Locator.walk]
  | cons s segments ih =>
      obtain ⟨notAbove, notHere⟩ := plain s List.mem_cons_self
      rw [Locator.walk, notAbove, notHere]
      simp only [Bool.false_eq_true, if_false, List.isEmpty_eq_false_iff.mpr started,
        Bool.and_false, Bool.false_and]
      rw [ih (by simp) fun t inside => plain t (List.mem_cons_of_mem _ inside)]
      simp

theorem isSlash_of_mem_segment {name : List Char} {c : Char} (inside : c ∈ segment name) :
    Scheme.file.isSlash c = false := by
  obtain ⟨-, slash, backslash, -, -⟩ := isQuiet_of_mem_segment inside
  simp [Scheme.isSlash, slash, backslash]

theorem beforeQuery_segments (names : List (List Char)) :
    Locator.beforeQuery ('/' :: Text.join '/' (names.map segment)) =
      '/' :: Text.join '/' (names.map segment) := by
  rw [Locator.beforeQuery, List.takeWhile_eq_self_iff]
  intro c inside
  simp only [Bool.and_eq_true, bne_iff_ne]
  rcases List.mem_cons.mp inside with rfl | inside
  · decide
  rcases Text.mem_join inside with rfl | ⟨part, found, here⟩
  · decide
  · obtain ⟨name, -, rfl⟩ := List.mem_map.mp found
    obtain ⟨-, -, -, question, hash⟩ := isQuiet_of_mem_segment here
    exact ⟨question, hash⟩

/-- The locator of a file has the segments of the names, in their order. -/
theorem ofFilePath_segments {names : List (List Char)} (filled : names ≠ [])
    (proper : ∀ name ∈ names, name ≠ [] ∧ name ≠ ['.'] ∧ name ≠ ['.', '.']) :
    Locator.ofFilePath .absent ('/' :: Text.join '/' (names.map segment)) =
      ⟨.absent, names.map segment⟩ := by
  have parts : Text.split Scheme.file.isSlash ('/' :: Text.join '/' (names.map segment)) =
      [] :: names.map segment := by
    rw [Text.split, if_pos (by decide), Text.split_join _ _ _ (by decide) (by simpa using filled)]
    intro part found c here
    obtain ⟨name, -, rfl⟩ := List.mem_map.mp found
    exact isSlash_of_mem_segment here
  have plain : ∀ s ∈ names.map segment, Locator.isAbove s = false ∧ Locator.isHere s = false := by
    intro s found
    obtain ⟨name, inside, rfl⟩ := List.mem_map.mp found
    obtain ⟨-, notPoint, notPoints⟩ := proper name inside
    exact ⟨isAbove_segment notPoints, isHere_segment notPoint⟩
  -- The slash behind the host makes an empty segment, behind which no drive is looked for.
  have walked : Locator.walk true [] ([] :: names.map segment) =
      ([] :: names.map segment, false) := by
    have first : Locator.walk true [] ([] :: names.map segment) =
        Locator.walk true [[]] (names.map segment) := rfl
    rw [first, walk_plain (by simp) plain]
    rfl
  have dropped : Locator.dropEmpty ([] :: names.map segment) = names.map segment := by
    cases names with
    | nil => exact absurd rfl filled
    | cons name names =>
        have notEmpty := segment_ne_nil (proper name List.mem_cons_self).1
        simp [Locator.dropEmpty, List.isEmpty_eq_false_iff.mpr notEmpty]
  rw [Locator.ofFilePath, beforeQuery_segments, parts, walked]
  simp only [Bool.false_eq_true, if_false, dropped]

/-! ### The path of a file -/

theorem pathBytes_segments (names : List (List Char)) (filled : names ≠ []) :
    pathBytes (names.map segment) = Text.Utf8.encode ('/' :: Text.join '/' names) := by
  have slash : String.utf8EncodeChar '/' = [47] := by decide
  induction names with
  | nil => exact absurd rfl filled
  | cons name names ih =>
      rw [List.map_cons, pathBytes, List.flatMap_cons, decode_segment, ← pathBytes,
        Text.Utf8.encode_cons, slash]
      by_cases last : names = []
      · simp [last, pathBytes, Text.join]
      · rw [ih last, Text.join_cons _ _ last, Text.Utf8.encode_append]
        rfl

/-- Whether the last two characters of a path are a letter and a colon or bar, as in the name of a
drive. -/
def EndsInDrive (path : List Char) : Prop :=
  Locator.isDrive (path.drop (path.length - 2)) = true

instance (path : List Char) : Decidable (EndsInDrive path) :=
  inferInstanceAs (Decidable (_ = true))

theorem isAlpha_of_isLetter {b : UInt8} (letter : isLetter b = true) :
    b.toNat < 0x80 ∧ (Char.ofNat b.toNat).isAlpha = true := by
  have all : ∀ n, n < 0x80 → (65 ≤ n ∧ n ≤ 90 ∨ 97 ≤ n ∧ n ≤ 122) →
      (Char.ofNat n).isAlpha = true := by decide
  have bounds : 65 ≤ b.toNat ∧ b.toNat ≤ 90 ∨ 97 ≤ b.toNat ∧ b.toNat ≤ 122 := by
    simpa [isLetter, UInt8.le_iff_toNat_le] using letter
  have small : b.toNat < 0x80 := by omega
  exact ⟨small, all _ small bounds⟩

theorem endsInDrive_concat (s : List Char) {letter mark : Char} (alpha : letter.isAlpha = true)
    (isMark : mark = ':' ∨ mark = '|') : EndsInDrive (s ++ [letter] ++ [mark]) := by
  have last : (s ++ [letter] ++ [mark]).drop ((s ++ [letter] ++ [mark]).length - 2) =
      [letter, mark] := by simp
  rw [EndsInDrive, last, Locator.isDrive, alpha, Bool.true_and]
  rcases isMark with rfl | rfl
  · rfl
  · rfl

/-- The bytes of a path end like the name of a drive only if the path does. -/
theorem closeDrive_encode {s : List Char} (free : ¬ EndsInDrive s) :
    closeDrive (Text.Utf8.encode s) = Text.Utf8.encode s := by
  rw [closeDrive]
  split
  · next mark letter before more form =>
      by_cases drive : (isLetter letter && (mark = 58 || mark = 124)) = true
      · exfalso
        simp only [Bool.and_eq_true, Bool.or_eq_true, decide_eq_true_eq] at drive
        obtain ⟨isLetter, isMark⟩ := drive
        have bytes : Text.Utf8.encode s = ((before :: more).reverse ++ [letter]) ++ [mark] := by
          rw [← List.reverse_reverse (Text.Utf8.encode s), form]
          simp
        obtain ⟨small, alpha⟩ := isAlpha_of_isLetter isLetter
        have markSmall : mark.toNat < 0x80 := by
          rcases isMark with rfl | rfl <;> decide
        obtain ⟨t, rfl, rest⟩ := Text.Utf8.eq_concat_of_encode markSmall bytes
        obtain ⟨u, rfl, -⟩ := Text.Utf8.eq_concat_of_encode small rest
        apply free
        apply endsInDrive_concat u alpha
        rcases isMark with rfl | rfl
        · exact .inl (by decide)
        · exact .inr (by decide)
      · exact if_neg drive
  · rfl

/-- The path of a file's locator has the bytes of the names behind slashes. -/
theorem pathBytes_ofFilePath {names : List (List Char)}
    (proper : ∀ name ∈ names, name ≠ [] ∧ name ≠ ['.'] ∧ name ≠ ['.', '.']) :
    pathBytes (Locator.ofFilePath .absent ('/' :: Text.join '/' (names.map segment))).path =
      Text.Utf8.encode ('/' :: Text.join '/' names) := by
  by_cases filled : names = []
  · rw [filled]
    decide
  · rw [ofFilePath_segments filled proper, pathBytes_segments names filled]

theorem host_ofFilePath_absent (path : List Char) :
    (Locator.ofFilePath .absent path).host = .absent := by
  simp only [Locator.ofFilePath, ite_self]

theorem toPath?_of_host_absent {l : Locator} (absent : l.host = .absent) :
    l.toPath? = some (String.ofList (Text.Utf8.decodeLossy (closeDrive (pathBytes l.path)))) := by
  rw [Locator.toPath?, absent]

theorem toFile?_eq {s : List Char} {l : Locator} (found : Locator.ofChars? s = some l) :
    toFile? (String.ofList s) = l.toPath? := by
  rw [toFile?, String.toList_ofList, found, Option.bind_some]

/-- The URI of a file names some file, though not always the same. -/
theorem exists_toFile?_of_ofFile? {path uri : String} (found : ofFile? path = some uri) :
    ∃ file, toFile? uri = some file := by
  obtain ⟨-, rfl⟩ := ofFile?_eq_some_iff.mp found
  rw [toFile?_eq (ofChars?_file visible_join_segment),
    toPath?_of_host_absent (host_ofFilePath_absent _)]
  exact ⟨_, rfl⟩

/-- A path without two points as a name comes back from its URI in normal form, unless that form
ends like the name of a drive. A path in normal form comes back as it is. -/
theorem toFile?_ofFile? {path : String} (absolute : path.toList.head? = some '/')
    (noWayUp : ['.', '.'] ∉ Text.split (· == '/') path.toList)
    (noDrive : ¬ EndsInDrive (Text.normalPath path.toList)) :
    ∃ uri, ofFile? path = some uri ∧
      toFile? uri = some (String.ofList (Text.normalPath path.toList)) ∧
      (Text.IsNormalPath path.toList → toFile? uri = some path) := by
  have found := ofFile?_eq_some_iff.mpr ⟨absolute, rfl⟩
  have proper : ∀ name ∈ Text.pathNames path.toList,
      name ≠ [] ∧ name ≠ ['.'] ∧ name ≠ ['.', '.'] := by
    intro name inside
    obtain ⟨part, notEmpty, notPoint⟩ := Text.mem_pathNames.mp inside
    refine ⟨notEmpty, notPoint, ?_⟩
    rintro rfl
    exact noWayUp part
  have back : toFile? (String.ofList (filePrefix ++
      '/' :: Text.join '/' ((Text.pathNames path.toList).map segment))) =
        some (String.ofList (Text.normalPath path.toList)) := by
    rw [toFile?_eq (ofChars?_file visible_join_segment),
      toPath?_of_host_absent (host_ofFilePath_absent _), pathBytes_ofFilePath proper,
      ← Text.normalPath, closeDrive_encode noDrive, Text.Utf8.decodeLossy_encode]
  refine ⟨_, found, back, ?_⟩
  intro normal
  rw [back, Text.normalPath_eq_self_iff.mpr normal, String.ofList_toList]

/-- Names that look like escapes of points, a drive on the way and blanks at the end survive. -/
theorem toFile?_ofFile?_oddNames :
    ∃ uri, ofFile? "//%2e%2e/./C|/a\\b?#\n/ü /" = some uri ∧
      toFile? uri = some "/%2e%2e/C|/a\\b?#\n/ü " := by
  have names : String.ofList (Text.normalPath "//%2e%2e/./C|/a\\b?#\n/ü /".toList) =
      "/%2e%2e/C|/a\\b?#\n/ü " := by decide
  obtain ⟨uri, found, back, -⟩ := @toFile?_ofFile? "//%2e%2e/./C|/a\\b?#\n/ü /"
    (by decide) (by decide) (by decide)
  exact ⟨uri, found, back.trans (congrArg some names)⟩

end EditorBridge.Uri
