import Mathlib.Data.List.Forall2
import EditorBridge.Proofs.Text.Blank
import EditorBridge.Proofs.Text.Path
import EditorBridge.Settings.Client

/-!
# Clients that are described by a text

A text describes a client by a list of extensions, a colon and a command. An extension may be
spelled with points in front of it and with gaps around it, and the words of the command are spaced.
Whoever writes so is understood, and a text is refused just if it has no colon, no extension in
front of the first one or no word behind it (`readsAndRefuses`).
-/

namespace EditorBridge.Client

open Text (IsGap IsWord IsSpaced)

/-- Whether a text can be an extension in a list. -/
structure IsListable (ext : String) : Prop where
  filled : ext.toList ≠ []
  comma : ',' ∉ ext.toList
  colon : ':' ∉ ext.toList
  point : ext.toList.head? ≠ some '.'
  first : ∀ c ∈ ext.toList.head?, Text.isBlank c = false
  last : ∀ c ∈ ext.toList.getLast?, Text.isBlank c = false

theorem isListable_iff {ext : String} : IsListable ext ↔
    ext.toList ≠ [] ∧ ',' ∉ ext.toList ∧ ':' ∉ ext.toList ∧ ext.toList.head? ≠ some '.' ∧
      ext.toList.head?.all (!Text.isBlank ·) = true ∧
      ext.toList.getLast?.all (!Text.isBlank ·) = true := by
  simp only [Option.all_eq_true, Bool.not_eq_true']
  constructor
  · rintro ⟨filled, comma, colon, point, first, last⟩
    exact ⟨filled, comma, colon, point, first, last⟩
  · rintro ⟨filled, comma, colon, point, first, last⟩
    exact ⟨filled, comma, colon, point, first, last⟩

instance (ext : String) : Decidable (IsListable ext) :=
  decidable_of_iff _ isListable_iff.symm

/-- Whether a text spells an extension: points may stand in front of it, and gaps around both. -/
def Spells (ext : String) (part : List Char) : Prop :=
  ∃ before n after, part = before ++ (List.replicate n '.' ++ ext.toList) ++ after ∧
    IsGap before ∧ IsGap after

/-- Whether none of the parts of a list is an extension. -/
def NamesNothing (listed : List Char) : Prop :=
  ∀ part ∈ Text.split (· == ',') listed, ∀ c ∈ Text.trim part, c = '.'

variable {spec ext : String} {listed command part : List Char}

/-! ### Extensions -/

theorem withoutPoints_eq_nil_iff : withoutPoints part = [] ↔ ∀ c ∈ part, c = '.' := by
  simp [withoutPoints, List.dropWhile_eq_nil_iff]

theorem withoutPoints_replicate (n : Nat) (notPoint : part.head? ≠ some '.') :
    withoutPoints (List.replicate n '.' ++ part) = part := by
  rw [withoutPoints, List.dropWhile_append_of_pos (by simp)]
  cases part with
  | nil => rfl
  | cons c part => simp_all

theorem extensions_eq_nil_iff : extensions listed = [] ↔ NamesNothing listed := by
  simp only [extensions, List.map_eq_nil_iff, List.filter_eq_nil_iff, List.forall_mem_map,
    NamesNothing, ← withoutPoints_eq_nil_iff]
  simp

instance (listed : List Char) : Decidable (NamesNothing listed) :=
  decidable_of_iff _ extensions_eq_nil_iff

/-- What is left of a text that spells an extension is the extension. -/
theorem Spells.read (listable : IsListable ext) (spells : Spells ext part) :
    withoutPoints (Text.trim part) = ext.toList := by
  obtain ⟨before, n, after, rfl, front, behind⟩ := spells
  have filled : List.replicate n '.' ++ ext.toList ≠ [] := by simp [listable.filled]
  have first : ∀ c ∈ (List.replicate n '.' ++ ext.toList).head?, Text.isBlank c = false := by
    cases n with
    | zero => exact listable.first
    | succ n =>
        intro c here
        obtain rfl : '.' = c := Option.some.inj here
        decide
  have last : ∀ c ∈ (List.replicate n '.' ++ ext.toList).getLast?, Text.isBlank c = false := by
    rw [List.getLast?_append_of_ne_nil _ listable.filled]
    exact listable.last
  rw [Text.trim_around front behind filled first last, withoutPoints_replicate n listable.point]

/-- A text that spells an extension has a separator in it only if the extension has. -/
theorem Spells.notMem {separator : Char} (spells : Spells ext part)
    (solid : Text.isBlank separator = false) (notPoint : separator ≠ '.')
    (absent : separator ∉ ext.toList) : separator ∉ part := by
  obtain ⟨before, n, after, rfl, front, behind⟩ := spells
  have inGap {gap : List Char} (blank : IsGap gap) : separator ∉ gap := fun inside => by
    rw [blank separator inside] at solid
    cases solid
  simp only [List.mem_append, not_or]
  exact ⟨⟨inGap front, fun inside => notPoint (List.eq_of_mem_replicate inside), absent⟩,
    inGap behind⟩

variable {exts : List String} {parts : List (List Char)}

theorem notMem_of_spelled {separator : Char} (spelled : List.Forall₂ Spells exts parts)
    (solid : Text.isBlank separator = false) (notPoint : separator ≠ '.')
    (absent : ∀ ext ∈ exts, separator ∉ ext.toList) : ∀ part ∈ parts, separator ∉ part := by
  induction spelled with
  | nil => exact nofun
  | cons spells rest ih =>
      rw [List.forall_mem_cons] at absent ⊢
      exact ⟨spells.notMem solid notPoint absent.1, ih absent.2⟩

/-- The extensions that a list spells are read of it. -/
theorem extensions_join (filled : exts ≠ []) (listable : ∀ ext ∈ exts, IsListable ext)
    (spelled : List.Forall₂ Spells exts parts) : extensions (Text.join ',' parts) = exts := by
  have some : parts ≠ [] := by
    rintro rfl
    exact filled (List.forall₂_nil_right_iff.mp spelled)
  have clean : ∀ part ∈ parts, ∀ c ∈ part, (c == ',') = false := by
    intro part inside c here
    rw [beq_eq_false_iff_ne]
    rintro rfl
    exact notMem_of_spelled spelled (by decide) (by decide)
      (fun ext listed => (listable ext listed).comma) part inside here
  rw [extensions, Text.split_join _ _ parts (by decide) some clean]
  clear filled some clean
  induction spelled with
  | nil => rfl
  | cons spells rest ih =>
      rw [List.forall_mem_cons] at listable
      have read := spells.read listable.1
      have kept := listable.1.filled
      simp [read, kept, ih listable.2]

/-! ### Texts with a colon and without -/

theorem ofSpec_of_notMem (absent : ':' ∉ spec.toList) : ofSpec spec = .error (.noColon spec) := by
  have none : spec.toList.dropWhile (· != ':') = [] := by
    rw [List.dropWhile_eq_nil_iff]
    intro c inside
    rw [bne_iff_ne]
    exact fun same => absent (same ▸ inside)
  rw [ofSpec, none]

/-- A text is cut at its first colon. -/
theorem cut_at_colon (form : spec.toList = listed ++ ':' :: command) (first : ':' ∉ listed) :
    spec.toList.dropWhile (· != ':') = ':' :: command ∧
      spec.toList.takeWhile (· != ':') = listed := by
  have others : ∀ c ∈ listed, (c != ':') = true := by
    intro c inside
    rw [bne_iff_ne]
    exact fun same => first (same ▸ inside)
  constructor
  · rw [form, List.dropWhile_append_of_pos others]
    rfl
  · rw [form, List.takeWhile_append_of_pos others]
    simp

/-- A text has no colon, or a first one. -/
theorem first_colon (spec : String) : ':' ∉ spec.toList ∨
    ∃ listed command, spec.toList = listed ++ ':' :: command ∧ ':' ∉ listed := by
  by_cases inside : ':' ∈ spec.toList
  · obtain ⟨listed, command, form, first⟩ := List.eq_append_cons_of_mem inside
    exact .inr ⟨listed, command, form, first⟩
  · exact .inl inside

/-- What is wrong with a text that has a colon: it names no extension, or else it has no command. -/
theorem ofSpec_cases (form : spec.toList = listed ++ ':' :: command) (first : ':' ∉ listed) :
    NamesNothing listed ∧ ofSpec spec = .error (.noExtensions spec) ∨
      ¬ NamesNothing listed ∧ IsGap command ∧ ofSpec spec = .error .noCommand ∨
      ¬ NamesNothing listed ∧ ¬ IsGap command ∧ ∃ client, ofSpec spec = .ok client := by
  obtain ⟨rest, front⟩ := cut_at_colon form first
  rw [ofSpec, rest, front, ← extensions_eq_nil_iff, ← Text.words_eq_nil_iff]
  dsimp only
  cases extensions listed with
  | nil => exact .inl ⟨rfl, rfl⟩
  | cons ext exts =>
      cases Text.words command with
      | nil => exact .inr (.inl ⟨nofun, rfl, rfl⟩)
      | cons binary args => exact .inr (.inr ⟨nofun, nofun, _, rfl⟩)

/-- A text with a colon is refused just if it names no extension or has no command. -/
theorem exists_error_iff (form : spec.toList = listed ++ ':' :: command) (first : ':' ∉ listed) :
    (∃ e, ofSpec spec = .error e) ↔ NamesNothing listed ∨ IsGap command := by
  rcases ofSpec_cases form first with
    ⟨nothing, refused⟩ | ⟨-, blank, refused⟩ | ⟨named, solid, client, read⟩
  · exact ⟨fun _ => .inl nothing, fun _ => ⟨_, refused⟩⟩
  · exact ⟨fun _ => .inr blank, fun _ => ⟨_, refused⟩⟩
  · constructor
    · rintro ⟨e, refused⟩
      rw [read] at refused
      cases refused
    · rintro (nothing | blank)
      · exact absurd nothing named
      · exact absurd blank solid

/-- A text that spells extensions, and behind a colon has the words of a command, describes the
client with these extensions and this command. -/
theorem ofSpec_spelled {binary : String} {args : List String} {before after : List Char}
    (filled : exts ≠ []) (listable : ∀ ext ∈ exts, IsListable ext)
    (spelled : List.Forall₂ Spells exts parts)
    (proper : ∀ word ∈ binary :: args, IsWord word.toList)
    (spaced : IsSpaced ((binary :: args).map String.toList) command)
    (front : IsGap before) (behind : IsGap after) :
    ofSpec (String.ofList (Text.join ',' parts ++ ':' :: (before ++ command ++ after))) =
      .ok ⟨binary, args, exts, [], [], none⟩ := by
  have first : ':' ∉ Text.join ',' parts := by
    intro inside
    rcases Text.mem_join inside with same | ⟨part, listed, here⟩
    · revert same
      decide
    · exact notMem_of_spelled spelled (by decide) (by decide)
        (fun ext listed => (listable ext listed).colon) part listed here
  have words : Text.words (before ++ command ++ after) = (binary :: args).map String.toList :=
    Text.words_of_isSpaced spaced (List.forall_mem_map.mpr proper) front behind
  obtain ⟨rest, listed⟩ := cut_at_colon String.toList_ofList first
  rw [ofSpec, rest, listed, extensions_join filled listable spelled]
  dsimp only
  rw [words]
  cases exts with
  | nil => exact absurd rfl filled
  | cons ext exts => simp [Function.comp_def]

/-- A text is read as it was written, whatever points and gaps are put in. It is refused just if it
has no colon, or none of the parts in front of the first colon is an extension, or no word stands
behind it. -/
theorem readsAndRefuses :
    (∀ (exts : List String) (parts : List (List Char)) (binary : String) (args : List String)
        (command before after : List Char), exts ≠ [] → (∀ ext ∈ exts, IsListable ext) →
      List.Forall₂ Spells exts parts → (∀ word ∈ binary :: args, IsWord word.toList) →
      IsSpaced ((binary :: args).map String.toList) command → IsGap before → IsGap after →
        ofSpec (String.ofList (Text.join ',' parts ++ ':' :: (before ++ command ++ after))) =
          .ok ⟨binary, args, exts, [], [], none⟩) ∧
    ∀ spec : String, (∃ e, ofSpec spec = .error e) ↔ ':' ∉ spec.toList ∨
      ∃ listed command, spec.toList = listed ++ ':' :: command ∧ ':' ∉ listed ∧
        (NamesNothing listed ∨ IsGap command) := by
  refine ⟨?_, ?_⟩
  · intro exts parts binary args command before after filled listable spelled proper spaced front
      behind
    exact ofSpec_spelled filled listable spelled proper spaced front behind
  · intro spec
    constructor
    · intro refused
      rcases first_colon spec with absent | ⟨listed, command, form, first⟩
      · exact .inl absent
      · exact .inr ⟨listed, command, form, first, (exists_error_iff form first).mp refused⟩
    · rintro (absent | ⟨listed, command, form, first, missing⟩)
      · exact ⟨_, ofSpec_of_notMem absent⟩
      · exact (exists_error_iff form first).mpr missing

/-- Two extensions, one of them with a point of its own, and a command with an argument. -/
theorem readsAndRefuses_typeScript :
    ofSpec " .ts\t,..d.ts: server  --stdio\n" =
        .ok ⟨"server", ["--stdio"], ["ts", "d.ts"], [], [], none⟩ ∧
      (∃ e, ofSpec " . ,.. :server" = .error e) ∧ ∃ e, ofSpec "ts:\t" = .error e := by
  obtain ⟨reads, refuses⟩ := readsAndRefuses
  refine ⟨?_, ?_, ?_⟩
  · refine reads ["ts", "d.ts"] [" .ts\t".toList, "..d.ts".toList] "server" ["--stdio"]
      "server  --stdio".toList [' '] ['\n'] (by decide) ?_ ?_ ?_ ?_ ?_ ?_
    · intro ext inside
      rcases List.mem_pair.mp inside with rfl | rfl <;> decide
    · refine .cons ⟨[' '], 1, ['\t'], ?_⟩ (.cons ⟨[], 2, [], ?_⟩ .nil) <;> decide
    · decide
    · exact .more "server".toList [' ', ' '] (by decide) (by decide) (.last "--stdio".toList)
    · decide
    · decide
  · exact (refuses _).mpr (.inr ⟨" . ,.. ".toList, "server".toList, by decide, by decide,
      .inl (by decide)⟩)
  · exact (refuses _).mpr (.inr ⟨"ts".toList, ['\t'], by decide, by decide,
      .inr (by decide)⟩)

end EditorBridge.Client
