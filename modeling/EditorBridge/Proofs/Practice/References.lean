import EditorBridge.Practice.Server
import EditorBridge.Proofs.Text.Occurrences

/-!
# References at the practice server

Whoever asks for the references of a place in an open file gets every place where the word at that
place is written, line by line and from the left in each line (`result?_references`). The word is
the longest run of word characters around the place (`IsWordAround`); to look for its ends among the
bytes of the line comes to the same (`wordAt?_eq`). Places that overlap one in the list are left
out, but the place that was asked about never is, since no word character stands in front of the
word there.
-/

namespace EditorBridge.Practice

open Text (Scan StandsAt)
open Text.Utf8 (byteLength byteLength_append)

/-! ### The word at a place -/

/-- Whether a column of a line lies on a word character. -/
def IsOnWord (line : List Char) (column : Nat) : Prop :=
  ∃ before c after, line = before ++ c :: after ∧ byteLength before = column ∧ isWordChar c = true

/-- Whether a word that starts at a column is the longest run of word characters around another
column. No word character stands in front of the word or behind it (`alone`). The word is made of
word characters (`chars`). The column lies in the word (`around`). -/
structure IsWordAround (line : List Char) (column : Nat) (word : List Char) (start : Nat) :
    Prop where
  alone : ∃ before after, line = before ++ (word ++ after) ∧ byteLength before = start ∧
    (∀ c, before.getLast? = some c → isWordChar c = false) ∧
      ∀ c, after.head? = some c → isWordChar c = false
  chars : ∀ c ∈ word, isWordChar c = true
  around : start ≤ column ∧ column < start + byteLength word

theorem toNat_lt_of_isWordChar {c : Char} (part : isWordChar c = true) : c.toNat < 0x80 := by
  have ascii {most : UInt32} (le : c.val ≤ most) (small : most.toNat < 0x80) : c.toNat < 0x80 :=
    Nat.lt_of_le_of_lt (UInt32.le_iff_toNat_le.mp le) small
  have kinds : (c.isUpper || c.isLower || c.isDigit || c == '_') = true := part
  simp only [Bool.or_eq_true, beq_iff_eq] at kinds
  rcases kinds with ((upper | lower) | digit) | rfl
  · exact ascii (of_decide_eq_true upper).2 (by decide)
  · exact ascii (of_decide_eq_true ((Bool.and_eq_true _ _).mp lower).2) (by decide)
  · exact ascii (of_decide_eq_true ((Bool.and_eq_true _ _).mp digit).2) (by decide)
  · decide

theorem utf8Size_of_isWordChar {c : Char} (part : isWordChar c = true) : c.utf8Size = 1 := by
  have small : c.val ≤ 0x7F :=
    UInt32.le_iff_toNat_le.mpr (Nat.le_of_lt_succ (toNat_lt_of_isWordChar part))
  simp [Char.utf8Size, small]

/-- Words count as many bytes as characters. -/
theorem byteLength_of_isWordChar {s : List Char} (parts : ∀ c ∈ s, isWordChar c = true) :
    byteLength s = s.length := by
  induction s with
  | nil => rfl
  | cons c s ih =>
      rw [List.forall_mem_cons] at parts
      rw [Text.byteLength_cons, utf8Size_of_isWordChar parts.1, ih parts.2, List.length_cons,
        Nat.add_comm]

theorem isWordChar_of_mem_takeWhile {s : List Char} {c : Char}
    (inside : c ∈ s.takeWhile isWordChar) : isWordChar c = true :=
  List.all_eq_true.mp List.all_takeWhile c inside

theorem not_isWordChar_of_head?_dropWhile {s : List Char} {c : Char}
    (first : (s.dropWhile isWordChar).head? = some c) : isWordChar c = false := by
  have edge := List.head?_dropWhile_not isWordChar s
  rw [first] at edge
  simpa using edge

/-- On a word character the word is found. -/
theorem wordAt?_append (before after : List Char) {c : Char} (part : isWordChar c = true) :
    ∃ w, wordAt? (before ++ c :: after) (byteLength before) = some w ∧
      IsWordAround (before ++ c :: after) (byteLength before) w.chars w.start := by
  let left := (before.reverse.takeWhile isWordChar).reverse
  let front := (before.reverse.dropWhile isWordChar).reverse
  let right := after.takeWhile isWordChar
  have parts : ∀ d ∈ left, isWordChar d = true := fun d inside =>
    isWordChar_of_mem_takeWhile (List.mem_reverse.mp inside)
  have behind : after = right ++ after.dropWhile isWordChar :=
    (List.takeWhile_append_dropWhile ..).symm
  have form : before = front ++ left := by
    rw [← List.reverse_append, List.takeWhile_append_dropWhile, List.reverse_reverse]
  have size : byteLength before = byteLength front + left.length := by
    rw [form, byteLength_append, byteLength_of_isWordChar parts]
  refine ⟨⟨left ++ c :: right, byteLength before - left.length⟩, ?found, ?alone, ?chars, ?around⟩
  case found => simp only [wordAt?, Text.splitAtByte?_append, if_pos part, left, right]
  case alone =>
    have start : byteLength front = byteLength before - left.length := by omega
    refine ⟨front, after.dropWhile isWordChar, ?_, start, fun d last => ?_, fun d first => ?_⟩
    · conv_lhs => rw [form, behind]
      simp
    · rw [List.getLast?_reverse] at last
      exact not_isWordChar_of_head?_dropWhile last
    · exact not_isWordChar_of_head?_dropWhile first
  case chars =>
    intro d inside
    rcases List.mem_append.mp inside with before | rest
    · exact parts d before
    · rcases List.mem_cons.mp rest with rfl | behind
      · exact part
      · exact isWordChar_of_mem_takeWhile behind
  case around =>
    have positive := Char.utf8Size_pos c
    simp only [byteLength_append, Text.byteLength_cons, byteLength_of_isWordChar parts]
    omega

theorem wordAt?_eq_none {line : List Char} {column : Nat} (off : ¬ IsOnWord line column) :
    wordAt? line column = none := by
  rw [wordAt?]
  split
  · next before c after split =>
      obtain ⟨rfl, size⟩ := Text.splitAtByte?_eq_some split
      exact if_neg fun part => off ⟨before, c, after, rfl, size, part⟩
  · rfl

theorem IsWordAround.ne_nil {line word : List Char} {column start : Nat}
    (around : IsWordAround line column word start) : word ≠ [] := by
  rintro rfl
  have inside := around.around
  simp only [byteLength, List.foldl_nil] at inside
  omega

/-! ### The word by its bytes -/

/-- Whether a byte is a word character. -/
def isWordByte (b : UInt8) : Bool :=
  isWordChar (Char.ofUInt8 b)

/-- Whether no word character is at a place among bytes. -/
def isEdge (bytes : List UInt8) (i : Nat) : Bool :=
  !(bytes[i]?).any isWordByte

/-- The bounds of the word at a column of a line. The bytes to the left and to the right of the
column are searched for the first that are no word characters. -/
def wordBounds? (bytes : List UInt8) (column : Nat) : Option (Nat × Nat) :=
  if bytes.length ≤ column then none
  else
    let start := (((List.range (column + 1)).reverse.find? (isEdge bytes)).map (· + 1)).getD 0
    let finish :=
      ((List.range' column (bytes.length - column)).find? (isEdge bytes)).getD bytes.length
    if finish ≤ start then none else some (start, finish)

theorem toNat_ofUInt8 (b : UInt8) : (Char.ofUInt8 b).toNat = b.toNat :=
  UInt8.toNat_toUInt32 b

/-- The bytes of a character are word characters if the character is one. -/
theorem isWordByte_of_mem {c : Char} {b : UInt8} (inside : b ∈ String.utf8EncodeChar c) :
    isWordByte b = isWordChar c := by
  by_cases small : b.toNat < 0x80
  · obtain ⟨-, rfl⟩ := Text.Utf8.eq_of_mem_utf8EncodeChar small inside
    rw [← toNat_ofUInt8, Char.ofNat_toNat, isWordByte]
  · have other : isWordByte b = false := by
      refine Bool.eq_false_iff.mpr fun part => small ?_
      rw [← toNat_ofUInt8]
      exact toNat_lt_of_isWordChar part
    rw [other]
    refine (Bool.eq_false_iff.mpr fun part => small ?_).symm
    rw [String.utf8EncodeChar_eq_singleton (utf8Size_of_isWordChar part)] at inside
    have most := toNat_lt_of_isWordChar part
    rw [List.mem_singleton.mp inside]
    exact Nat.lt_of_le_of_lt (Nat.mod_le _ _) most

/-- The search to the left stops behind the first edge. -/
theorem find?_reverse_range {p : Nat → Bool} {a n : Nat} (le : a ≤ n)
    (inner : ∀ i, a ≤ i → i < n → p i = false) (edge : a = 0 ∨ p (a - 1) = true) :
    (((List.range n).reverse.find? p).map (· + 1)).getD 0 = a := by
  induction n with
  | zero =>
      obtain rfl : a = 0 := Nat.le_zero.mp le
      rfl
  | succ n ih =>
      rw [List.range_succ, List.reverse_append, List.reverse_singleton, List.singleton_append]
      rcases Nat.eq_or_lt_of_le le with rfl | lt
      · have first : p n = true := edge.resolve_left (Nat.succ_ne_zero n)
        rw [List.find?_cons_of_pos first]
        rfl
      · have other := inner n (by omega) (Nat.lt_succ_self n)
        rw [List.find?_cons_of_neg (by rw [other]; nofun)]
        exact ih (by omega) fun i least most => inner i least (by omega)

/-- The search to the right stops at the first edge. -/
theorem find?_range' {p : Nat → Bool} {a b n : Nat} (least : a ≤ b) (most : b ≤ a + n)
    (inner : ∀ i, a ≤ i → i < b → p i = false) (edge : b = a + n ∨ p b = true) :
    ((List.range' a n).find? p).getD (a + n) = b := by
  induction n generalizing a with
  | zero => exact Nat.le_antisymm least most
  | succ n ih =>
      rw [List.range'_succ]
      rcases Nat.eq_or_lt_of_le least with rfl | lt
      · have first : p a = true := edge.resolve_left (by omega)
        rw [List.find?_cons_of_pos first]
        rfl
      · have other := inner a (Nat.le_refl a) lt
        rw [List.find?_cons_of_neg (by rw [other]; nofun), Nat.add_comm n 1, ← Nat.add_assoc]
        refine ih lt (by omega) (fun i low high => inner i (by omega) high) ?_
        rwa [Nat.add_assoc, Nat.add_comm 1 n]

theorem isEdge_append_left {a : List UInt8} {i : Nat} (inside : i < a.length) (b : List UInt8) :
    isEdge (a ++ b) i = isEdge a i := by
  rw [isEdge, List.getElem?_append_left inside, isEdge]

theorem isEdge_append_right {a : List UInt8} {i : Nat} (behind : a.length ≤ i) (b : List UInt8) :
    isEdge (a ++ b) i = isEdge b (i - a.length) := by
  rw [isEdge, List.getElem?_append_right behind, isEdge]

/-- There are no word characters among the bytes of any other character. -/
theorem isEdge_utf8EncodeChar {c : Char} {i : Nat} (inside : i < c.utf8Size) :
    isEdge (String.utf8EncodeChar c) i = !isWordChar c := by
  rw [← String.length_utf8EncodeChar] at inside
  rw [isEdge, List.getElem?_eq_getElem inside, Option.any_some,
    isWordByte_of_mem (List.getElem_mem inside)]

theorem isEdge_of_isWordChar {word : List Char} (parts : ∀ c ∈ word, isWordChar c = true) {i : Nat}
    (inside : i < byteLength word) : isEdge (Text.Utf8.encode word) i = false := by
  rw [← Text.Utf8.length_encode] at inside
  obtain ⟨c, part, byte⟩ := List.mem_flatMap.mp (List.getElem_mem inside)
  rw [isEdge, List.getElem?_eq_getElem inside, Option.any_some, isWordByte_of_mem byte,
    parts c part]
  rfl

/-- A byte that is a word character is a character of its own. -/
theorem isOnWord_of_getElem? {line : List Char} {column : Nat} {b : UInt8}
    (here : (Text.Utf8.encode line)[column]? = some b) (part : isWordByte b = true) :
    IsOnWord line column := by
  induction line generalizing column with
  | nil => simp [Text.Utf8.encode] at here
  | cons c rest ih =>
      rw [Text.Utf8.encode_cons, List.getElem?_append, String.length_utf8EncodeChar] at here
      split at here
      · next inside =>
          rw [isWordByte_of_mem (List.mem_of_getElem? here)] at part
          rw [utf8Size_of_isWordChar part] at inside
          exact ⟨[], c, rest, rfl, (Nat.lt_one_iff.mp inside).symm, part⟩
      · next behind =>
          obtain ⟨before, d, after, rfl, size, part⟩ := ih here
          refine ⟨c :: before, d, after, rfl, ?_, part⟩
          rw [Text.byteLength_cons, size]
          omega

/-- The bounds are where the two searches end. -/
theorem wordBounds?_eq {bytes : List UInt8} {column start finish : Nat}
    (inside : column < bytes.length) (left : start ≤ column + 1) (right : column ≤ finish)
    (most : finish ≤ bytes.length)
    (inner : ∀ i, start ≤ i ∧ i ≤ column ∨ column ≤ i ∧ i < finish → isEdge bytes i = false)
    (front : start = 0 ∨ isEdge bytes (start - 1) = true)
    (behind : finish = bytes.length ∨ isEdge bytes finish = true) :
    wordBounds? bytes column = if finish ≤ start then none else some (start, finish) := by
  have size : column + (bytes.length - column) = bytes.length := by omega
  have first := find?_reverse_range (p := isEdge bytes) left
    (fun i least lt => inner i (.inl ⟨least, Nat.le_of_lt_succ lt⟩)) front
  have last := find?_range' (p := isEdge bytes) (n := bytes.length - column) right (by omega)
    (fun i least lt => inner i (.inr ⟨least, lt⟩)) (by rwa [size])
  rw [size] at last
  rw [wordBounds?, if_neg (Nat.not_le.mpr inside)]
  simp only [first, last]

theorem wordBounds?_eq_none {line : List Char} {column : Nat} (off : ¬ IsOnWord line column) :
    wordBounds? (Text.Utf8.encode line) column = none := by
  by_cases inside : column < (Text.Utf8.encode line).length
  · have edge : isEdge (Text.Utf8.encode line) column = true := by
      rw [isEdge, List.getElem?_eq_getElem inside]
      simpa using fun part => off (isOnWord_of_getElem? (List.getElem?_eq_getElem inside) part)
    have bounds := wordBounds?_eq inside (Nat.le_refl _) (Nat.le_refl _) (Nat.le_of_lt inside)
      (fun i => by omega) (.inr edge) (.inr edge)
    rw [bounds, if_pos (Nat.le_succ column)]
  · rw [wordBounds?, if_pos (Nat.not_lt.mp inside)]

/-- The search of the bytes ends at the bounds of the word. -/
theorem IsWordAround.wordBounds? {line word : List Char} {column start : Nat}
    (around : IsWordAround line column word start) :
    Practice.wordBounds? (Text.Utf8.encode line) column =
      some (start, start + byteLength word) := by
  obtain ⟨before, after, rfl, rfl, left, right⟩ := around.alone
  obtain ⟨least, most⟩ := around.around
  rw [Text.Utf8.encode_append, Text.Utf8.encode_append]
  have size := Text.Utf8.length_encode before
  have wordSize := Text.Utf8.length_encode word
  have total :
      (Text.Utf8.encode before ++ (Text.Utf8.encode word ++ Text.Utf8.encode after)).length =
        byteLength before + (byteLength word + (Text.Utf8.encode after).length) := by
    rw [List.length_append, List.length_append, size, wordSize]
  refine (wordBounds?_eq ?_ ?_ ?_ ?_ ?inner ?front ?behind).trans (if_neg ?_)
  case inner =>
    intro i within
    rw [isEdge_append_right (by omega), isEdge_append_left (by omega)]
    exact isEdge_of_isWordChar around.chars (by omega)
  case front =>
    rcases List.eq_nil_or_concat' before with rfl | ⟨rest, c, rfl⟩
    · exact .inl rfl
    · have positive := Char.utf8Size_pos c
      have other := left c List.getLast?_concat
      have restSize := Text.Utf8.length_encode rest
      have lastSize : byteLength (rest ++ [c]) = byteLength rest + c.utf8Size := by
        rw [byteLength_append, Text.byteLength_cons]
        rfl
      right
      rw [isEdge_append_left (by omega), Text.Utf8.encode_append, lastSize,
        isEdge_append_right (by omega), Text.Utf8.encode_cons,
        isEdge_append_left (by rw [String.length_utf8EncodeChar]; omega),
        isEdge_utf8EncodeChar (by omega), other]
      rfl
  case behind =>
    cases after with
    | nil => exact .inl total.symm
    | cons c rest =>
        have positive := Char.utf8Size_pos c
        right
        rw [isEdge_append_right (by omega), isEdge_append_right (by omega), Text.Utf8.encode_cons,
          isEdge_append_left (by rw [String.length_utf8EncodeChar]; omega),
          isEdge_utf8EncodeChar (by omega), right c rfl]
        rfl
  all_goals omega

/-- What the search of the bytes finds is the word. -/
theorem wordAt?_eq (line : List Char) (column : Nat) :
    wordAt? line column =
      (wordBounds? (Text.Utf8.encode line) column).bind fun (start, finish) =>
        (Text.splitAtByte? start line).bind fun (_, rest) =>
          (Text.splitAtByte? (finish - start) rest).map fun (chars, _) => ⟨chars, start⟩ := by
  by_cases on : IsOnWord line column
  · obtain ⟨before, c, after, rfl, rfl, part⟩ := on
    obtain ⟨w, found, around⟩ := wordAt?_append before after part
    obtain ⟨front, back, form, start, -, -⟩ := around.alone
    have first := Text.splitAtByte?_append front (w.chars ++ back)
    have second := Text.splitAtByte?_append w.chars back
    rw [← form, start] at first
    simp only [found, around.wordBounds?, Option.bind_some, first, Nat.add_sub_cancel_left, second,
      Option.map_some]
  · rw [wordBounds?_eq_none on, wordAt?_eq_none on]
    rfl

/-! ### The search -/

namespace Document

/-- The stretch of a word in a line. -/
def Stretch.ofWord (word : List Char) (n start : Nat) : Stretch :=
  ⟨n, start, start + byteLength word⟩

/-- Whether a stretch comes before another one. -/
def Stretch.Precedes (p q : Stretch) : Prop :=
  p.line < q.line ∨ p.line = q.line ∧ p.start < q.start

/-- Whether a stretch ends before another one in the same line begins. -/
def Stretch.IsApart (p q : Stretch) : Prop :=
  p.line = q.line → p.finish ≤ q.start

/-- The search for a word from a line of a text on, one line after the other: the places in a line,
and those in the lines behind it. -/
inductive Hunt (word : List Char) (text : List (List Char)) : Nat → List Stretch → Prop where
  | stop {n : Nat} (ended : text[n]? = none) : Hunt word text n []
  | next {n : Nat} {line : List Char} {starts : List Nat} {places : List Stretch}
      (here : text[n]? = some line) (scan : Scan word line 0 starts)
      (more : Hunt word text (n + 1) places) :
      Hunt word text n (starts.map (Stretch.ofWord word n) ++ places)

variable {word : List Char} {text : List (List Char)} {n : Nat} {places : List Stretch}

theorem hunt_append (filled : word ≠ []) (front rest : List (List Char)) :
    Hunt word (front ++ rest) front.length ((rest.zipIdx front.length).flatMap fun (line, n) =>
      (Text.occurrences word line).map (Stretch.ofWord word n)) := by
  induction rest generalizing front with
  | nil => exact .stop (by simp)
  | cons line rest ih =>
      have more := ih (front ++ [line])
      rw [List.append_assoc, List.length_append] at more
      rw [List.zipIdx_cons, List.flatMap_cons]
      exact .next (by simp) (Text.scan_occurrences filled line) more

/-- The search cannot find anything else. -/
theorem Hunt.unique (hunt : Hunt word text n places) {others : List Stretch}
    (other : Hunt word text n others) : others = places := by
  induction hunt generalizing others with
  | stop ended =>
      cases other with
      | stop => rfl
      | next here => cases ended.symm.trans here
  | next here scan more ih =>
      cases other with
      | stop ended => cases ended.symm.trans here
      | next again found later =>
          cases here.symm.trans again
          rw [scan.unique found, ih later]

/-- Whether a stretch is a place where a word is written. -/
structure Stretch.Spells (p : Stretch) (word : List Char) (text : List (List Char)) : Prop where
  stands : ∃ line, text[p.line]? = some line ∧ StandsAt word line p.start
  finish : p.finish = p.start + byteLength word

theorem Hunt.spells (hunt : Hunt word text n places) {p : Stretch} (inside : p ∈ places) :
    n ≤ p.line ∧ p.Spells word text := by
  induction hunt with
  | stop => cases inside
  | next here scan more ih =>
      rcases List.mem_append.mp inside with first | later
      · obtain ⟨start, found, rfl⟩ := List.mem_map.mp first
        exact ⟨Nat.le_refl _, ⟨_, here, (scan.standsAt found).2⟩, rfl⟩
      · obtain ⟨behind, spells⟩ := ih later
        exact ⟨Nat.le_of_succ_le behind, spells⟩

/-- The places are found in their order, and no two of them overlap. -/
theorem Hunt.pairwise (filled : word ≠ []) (hunt : Hunt word text n places) :
    places.Pairwise fun p q => p.Precedes q ∧ p.IsApart q := by
  have positive : 0 < byteLength word :=
    Nat.pos_of_ne_zero fun empty => filled (Text.byteLength_eq_zero_iff.mp empty)
  induction hunt with
  | stop => exact .nil
  | next here scan more ih =>
      refine List.pairwise_append.mpr ⟨?_, ih, ?_⟩
      · refine List.pairwise_map.mpr (scan.pairwise.imp fun {j k} apart => ?_)
        exact ⟨.inr ⟨rfl, by simp only [Stretch.ofWord]; omega⟩, fun _ => apart⟩
      · intro p first q later
        obtain ⟨start, -, rfl⟩ := List.mem_map.mp first
        have behind := (more.spells later).1
        exact ⟨.inl behind, fun same => absurd same (Nat.ne_of_lt behind)⟩

/-- The places in a line are those that a search of the line finds. -/
theorem Hunt.exists_scan (hunt : Hunt word text n places) {m : Nat} {line : List Char}
    (behind : n ≤ m) (here : text[m]? = some line) :
    ∃ starts, Scan word line 0 starts ∧ ∀ k ∈ starts, Stretch.ofWord word m k ∈ places := by
  induction hunt with
  | stop ended =>
      rw [List.getElem?_eq_none_iff] at ended
      rw [List.getElem?_eq_none (by omega)] at here
      cases here
  | next there scan more ih =>
      rcases Nat.eq_or_lt_of_le behind with rfl | later
      · obtain rfl := Option.some.inj (there.symm.trans here)
        exact ⟨_, scan, fun k found => List.mem_append_left _ (List.mem_map_of_mem found)⟩
      · obtain ⟨starts, scan, found⟩ := ih later
        exact ⟨starts, scan, fun k inside => List.mem_append_right _ (found k inside)⟩

/-- Whether places are the references of a word in the lines of a text. The search ends with these
places, and every cut it makes lies between two characters (`hunted`). It does not end with any
others (`only`). They come in the order of lines and columns (`increasing`). No two of them overlap
(`disjoint`). The word is written there (`spelled`). Wherever the word is written overlaps one of
them (`complete`). -/
structure AreReferences (word : List Char) (text : List (List Char)) (places : List Stretch) :
    Prop where
  hunted : Hunt word text 0 places
  only : ∀ others, Hunt word text 0 others → others = places
  increasing : places.Pairwise Stretch.Precedes
  disjoint : places.Pairwise Stretch.IsApart
  spelled : ∀ p ∈ places, p.Spells word text
  complete : ∀ n line k, text[n]? = some line → StandsAt word line k →
    ∃ p ∈ places, p.line = n ∧ p.start ≤ k ∧ k < p.finish

theorem Hunt.areReferences (filled : word ≠ []) (hunt : Hunt word text 0 places) :
    AreReferences word text places where
  hunted := hunt
  only _ other := hunt.unique other
  increasing := (hunt.pairwise filled).imp And.left
  disjoint := (hunt.pairwise filled).imp And.right
  spelled p inside := (hunt.spells inside).2
  complete n line k here stands := by
    obtain ⟨starts, scan, found⟩ := hunt.exists_scan (Nat.zero_le n) here
    obtain ⟨j, inside, le, lt⟩ := scan.covers stands (Nat.zero_le k)
    exact ⟨_, found j inside, rfl, le, lt⟩

/-- The place that was asked about is one of the references. -/
theorem Hunt.mem_of_isWordAround (hunt : Hunt word text 0 places) {line : List Char}
    {column start : Nat} (here : text[n]? = some line)
    (around : IsWordAround line column word start) : Stretch.ofWord word n start ∈ places := by
  obtain ⟨starts, scan, found⟩ := hunt.exists_scan (Nat.zero_le n) here
  obtain ⟨before, after, rfl, rfl, edge, -⟩ := around.alone
  exact found _ (scan.mem_of_edge around.chars edge (Nat.zero_le _))

end Document

/-! ### The answer -/

variable {s : Server} {params : Json} {uri : String} {line column : Nat} {d : Document}

theorem Document.references?_eq_some {text : List Char} {w : Word}
    (here : (Text.lines d.text)[line]? = some text) (found : Practice.wordAt? text column = some w)
    (around : IsWordAround text column w.chars w.start) :
    ∃ places, d.references? line column = some places ∧
      AreReferences w.chars (Text.lines d.text) places ∧
        Stretch.ofWord w.chars line w.start ∈ places := by
  have hunt := hunt_append around.ne_nil [] (Text.lines d.text)
  refine ⟨_, ?_, hunt.areReferences around.ne_nil, hunt.mem_of_isWordAround here around⟩
  have ofWord (n : Nat) : Stretch.ofWord w.chars n =
      fun start => ⟨n, start, start + w.chars.length⟩ := by
    rw [← byteLength_of_isWordChar around.chars]
    rfl
  rw [references?, wordAt?, here, Option.bind_some, found, Option.map_some]
  simp only [ofWord]
  rfl

/-- Whoever asks for the references of a place on a word in an open file gets every place where the
word is written, but for those that overlap another one, in the order of the text. Everywhere else
in the file there is nothing to get. -/
theorem result?_references (place : Server.place? params = some (uri, line, column))
    (opened : s.document? uri = some d) :
    (∀ text, (Text.lines d.text)[line]? = some text → IsOnWord text column →
      ∃ word start places, IsWordAround text column word start ∧
        Document.AreReferences word (Text.lines d.text) places ∧
          Document.Stretch.ofWord word line start ∈ places ∧
            s.result? "textDocument/references" params =
              some (.array (places.map (Server.locationJson uri)))) ∧
      ((¬ ∃ text, (Text.lines d.text)[line]? = some text ∧ IsOnWord text column) →
        s.result? "textDocument/references" params = some .null) := by
  have answer : s.result? "textDocument/references" params =
      some (((d.references? line column).map fun places =>
        Json.array (places.map (Server.locationJson uri))).getD .null) := by
    simp only [Server.result?, Server.references?, place, opened, Option.bind_some]
  rw [answer]
  constructor
  · rintro text here ⟨before, c, after, rfl, rfl, part⟩
    obtain ⟨w, found, around⟩ := wordAt?_append before after part
    obtain ⟨places, references, are, own⟩ := Document.references?_eq_some here found around
    refine ⟨w.chars, w.start, places, around, are, own, ?_⟩
    rw [references]
    rfl
  · intro off
    have none : d.wordAt? line column = none := by
      rw [Document.wordAt?]
      cases here : (Text.lines d.text)[line]? with
      | none => rfl
      | some text => exact wordAt?_eq_none fun on => off ⟨text, here, on⟩
    rw [Document.references?, none]
    rfl

/-- The word stands inside another one as well, where it overlaps itself, and behind a character of
two bytes. -/
theorem result?_references_overlap :
    let text := "ababa aba\né aba".toList
    let s : Server := { Server.start (.ofGiven []) with documents := [("u", ⟨text, 0⟩)] }
    let params := Json.object
      [("textDocument", .object [("uri", .string "u")]),
        ("position", .object [("line", .int 0), ("character", .int 7)])]
    ∃ word start places, IsWordAround "ababa aba".toList 7 word start ∧
      Document.AreReferences word (Text.lines text) places ∧
        Document.Stretch.ofWord word 0 start ∈ places ∧
          s.result? "textDocument/references" params =
            some (.array (places.map (Server.locationJson "u"))) := by
  intro text s params
  have place : Server.place? params = some ("u", 0, 7) := by decide
  have opened : s.document? "u" = some ⟨text, 0⟩ := rfl
  exact (result?_references place opened).1 "ababa aba".toList (by decide)
    ⟨"ababa a".toList, 'b', "a".toList, by decide, by decide, by decide⟩

example : (⟨"ababa aba\né aba".toList, 0⟩ : Document).references? 0 7 =
    some [⟨0, 0, 3⟩, ⟨0, 6, 9⟩, ⟨1, 3, 6⟩] := by
  decide

end EditorBridge.Practice
