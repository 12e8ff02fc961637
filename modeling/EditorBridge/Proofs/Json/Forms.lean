import Mathlib.Data.List.Forall2
import EditorBridge.Proofs.Json.Members
import EditorBridge.Proofs.Json.RoundTrip

/-!
# Forms of records and lists

How numbers, lists and records stand in a value, said without reading them. A record is written as
an object with its members, which may have others, or as the list of its members (`IsRecord`); a
member that a record can do without may be missing or null (`IsEntry`, `MayBe`). The readers take
just what is written so.
-/

namespace EditorBridge

namespace Json

variable {α : Type} {read : Json → Option α} {v : Json}

/-! ### Values -/

theorem string?_eq_some_iff {s : String} : v.string? = some s ↔ v = .string s := by
  cases v <;> simp [string?]

theorem eq_int_of_intBetween? {low high n : Int} (found : v.intBetween? low high = some n) :
    v = .int n ∧ low ≤ n ∧ n ≤ high := by
  cases v with
  | int m =>
      rw [intBetween?] at found
      split at found
      · next inside =>
          obtain rfl := Option.some.inj found
          simpa using inside
      · cases found
  | _ => cases found

theorem int64?_eq_some_iff {n : Int64} : v.int64? = some n ↔ v = .int n.toInt := by
  constructor
  · intro found
    obtain ⟨m, inside, rfl⟩ := Option.map_eq_some_iff.mp found
    obtain ⟨rfl, least, most⟩ := eq_int_of_intBetween? inside
    rw [Int64.toInt_ofInt_of_le least (Int.lt_of_le_of_lt most (by decide))]
  · rintro rfl
    exact int64?_int n

theorem int32?_eq_some_iff {n : Int32} : v.int32? = some n ↔ v = .int n.toInt := by
  constructor
  · intro found
    obtain ⟨m, inside, rfl⟩ := Option.map_eq_some_iff.mp found
    obtain ⟨rfl, least, most⟩ := eq_int_of_intBetween? inside
    rw [Int32.toInt_ofInt_of_le least (Int.lt_of_le_of_lt most (by decide))]
  · rintro rfl
    exact int32?_int n

theorem uint32?_eq_some_iff {n : UInt32} : v.uint32? = some n ↔ v = .int n.toNat := by
  constructor
  · intro found
    obtain ⟨m, inside, rfl⟩ := Option.map_eq_some_iff.mp found
    obtain ⟨rfl, least, most⟩ := eq_int_of_intBetween? inside
    have size : (UInt32.size : Int) = 2 ^ 32 := rfl
    rw [UInt32.toNat_ofNat_of_lt' (by omega), Int.toNat_of_nonneg least]
  · rintro rfl
    exact uint32?_int n

/-! ### Lists -/

/-- A list is read if all its items are, in their order. -/
theorem listOf?_eq_some_iff {values : List α} :
    listOf? read v = some values ↔
      ∃ items, v = .array items ∧ List.Forall₂ (fun item a => read item = some a) items values := by
  have each : ∀ items : List Json, items.mapM read = some values ↔
      List.Forall₂ (fun item a => read item = some a) items values := by
    intro items
    induction items generalizing values with
    | nil => cases values <;> simp
    | cons item items ih =>
        rw [List.mapM_cons]
        cases first : read item with
        | none => cases values <;> simp [first]
        | some a =>
            cases others : items.mapM read with
            | none => cases values <;> simp [first, ← ih, others]
            | some rest => cases values <;> simp [first, ← ih, others]
  cases v with
  | array items => simpa [listOf?] using each items
  | _ => simp [listOf?]

/-- A list is read as the values that its items stand for. -/
theorem listOf?_of_forall₂ {stands : Json → α → Prop} {items : List Json} {values : List α}
    (reads : ∀ item a, stands item a → read item = some a)
    (all : List.Forall₂ stands items values) : listOf? read (.array items) = some values :=
  listOf?_eq_some_iff.mpr ⟨items, rfl, all.imp reads⟩

/-- Whether a value is a list of values of some kind. -/
def IsListOf (kind : Json → Prop) (v : Json) : Prop :=
  ∃ items, v = .array items ∧ ∀ item ∈ items, kind item

theorem exists_listOf?_iff {kind : Json → Prop} (each : ∀ w, (∃ a, read w = some a) ↔ kind w) :
    (∃ values, listOf? read v = some values) ↔ IsListOf kind v := by
  have all : ∀ items : List Json,
      (∃ values, List.Forall₂ (fun item a => read item = some a) items values) ↔
        ∀ item ∈ items, kind item := by
    intro items
    induction items with
    | nil => simp
    | cons item items ih =>
        rw [List.forall_mem_cons, ← each, ← ih]
        simp only [List.forall₂_cons_left_iff]
        constructor
        · rintro ⟨_, a, values, first, others, rfl⟩
          exact ⟨⟨a, first⟩, values, others⟩
        · rintro ⟨⟨a, first⟩, values, others⟩
          exact ⟨_, a, values, first, others, rfl⟩
  simp only [listOf?_eq_some_iff, IsListOf]
  constructor
  · rintro ⟨values, items, rfl, read⟩
    exact ⟨items, rfl, (all items).mp ⟨values, read⟩⟩
  · rintro ⟨items, rfl, kinds⟩
    obtain ⟨values, read⟩ := (all items).mpr kinds
    exact ⟨values, items, rfl, read⟩

/-- A list is not read if one of its items is not. -/
theorem listOf?_eq_none {items : List Json} (inside : v ∈ items) (malformed : read v = none) :
    listOf? read (.array items) = none := by
  rw [Option.eq_none_iff_forall_ne_some]
  intro values found
  obtain ⟨_, same, all⟩ := (exists_listOf?_iff fun _ => Iff.rfl).mp ⟨values, found⟩
  obtain rfl := Json.array.inj same
  obtain ⟨a, here⟩ := all v inside
  rw [malformed] at here
  cases here

/-! ### Records -/

/-- Whether a value is a record with some members, which have these names in this order: an object,
where a member may be missing and there may be others, or the list of all its members. -/
inductive IsRecord (names : List String) : List (Option Json) → Json → Prop
  | object (members : List (String × Json)) :
      IsRecord names (names.map (lookup · members)) (.object members)
  | array {items : List Json} (all : items.length = names.length) :
      IsRecord names (items.map some) (.array items)

theorem isRecord_object_iff {names : List String} {values : List (Option Json)}
    {members : List (String × Json)} :
    IsRecord names values (.object members) ↔ values = names.map (lookup · members) := by
  constructor
  · rintro ⟨⟩
    rfl
  · rintro rfl
    exact .object members

theorem isRecord_array_iff {names : List String} {values : List (Option Json)}
    {items : List Json} :
    IsRecord names values (.array items) ↔
      items.length = names.length ∧ values = items.map some := by
  constructor
  · rintro ⟨⟩
    exact ⟨‹_›, rfl⟩
  · rintro ⟨all, rfl⟩
    exact .array all

/-- The members of a record in normal form are in normal form. -/
theorem IsRecord.normal {names : List String} {values : List (Option Json)} {w : Json}
    (form : IsRecord names values v) (normal : v.canonical = v) (inside : some w ∈ values) :
    w.canonical = w := by
  cases form with
  | object members =>
      obtain ⟨name, -, found⟩ := List.mem_map.mp inside
      exact @normal_of_get? _ w normal name found
  | @array items all =>
      obtain ⟨item, here, same⟩ := List.mem_map.mp inside
      obtain rfl := Option.some.inj same
      rw [canonical] at normal
      exact normal_of_mem (Json.array.inj normal) here

theorem members?_eq_some_iff {names : List String} {values : List (Option Json)} :
    v.members? names 0 = some values ↔ IsRecord names values v := by
  constructor
  · intro found
    cases v with
    | object members =>
        obtain rfl := Option.some.inj found
        exact .object members
    | array items =>
        simp only [members?, Option.ite_none_right_eq_some, Bool.and_eq_true, decide_eq_true_eq,
          Option.some.injEq] at found
        obtain ⟨⟨most, least⟩, rfl⟩ := found
        have all : items.length = names.length := by omega
        rw [all, Nat.sub_self, List.replicate_zero, List.append_nil]
        exact .array all
    | _ => cases found
  · intro form
    cases form with
    | object members => rfl
    | array all => simp [members?, all]

/-- Whether a member is missing or null, or a value of some kind. -/
def MayBe (kind : Json → Prop) (member : Option Json) : Prop :=
  ∀ w, member = some w → w = .null ∨ kind w

/-- Whether a member stands for something, or is missing or null where there is nothing. -/
inductive IsEntry (stands : α → Json → Prop) : Option α → Option Json → Prop
  | missing : IsEntry stands none none
  | null : IsEntry stands none (some .null)
  | written {a : α} {w : Json} (written : stands a w) : IsEntry stands (some a) (some w)

theorem required_eq_some_iff {member : Option Json} {a : α} :
    required read member = some a ↔ ∃ w, member = some w ∧ read w = some a := by
  cases member <;> simp [required]

theorem exists_optional_iff {kind : Json → Prop} (each : ∀ w, (∃ a, read w = some a) ↔ kind w)
    {member : Option Json} : (∃ a, optional read member = some a) ↔ MayBe kind member := by
  cases member with
  | none => simp [optional, MayBe]
  | some w =>
      by_cases empty : w = .null
      · simp [optional, MayBe, empty]
      · rw [optional_some empty]
        simp [MayBe, empty, ← each]

/-- A member that may be any value is as it is, but null stands for nothing. -/
theorem optional_any (member : Option Json) :
    optional some member = some (member.filter (!·.isNull)) := by
  cases member with
  | none => rfl
  | some w => cases w <;> rfl

theorem optional_eq_some_iff {stands : α → Json → Prop}
    (each : ∀ a w, read w = some a ↔ stands a w) (filled : ∀ a, ¬ stands a .null)
    {member : Option Json} {value : Option α} :
    optional read member = some value ↔ IsEntry stands value member := by
  constructor
  · intro found
    cases member with
    | none =>
        obtain rfl := Option.some.inj found
        exact .missing
    | some w =>
        by_cases empty : w = .null
        · subst empty
          obtain rfl := Option.some.inj found
          exact .null
        · rw [optional_some empty] at found
          obtain ⟨a, inside, rfl⟩ := Option.map_eq_some_iff.mp found
          exact .written ((each a w).mp inside)
  · intro entry
    cases entry with
    | missing => rfl
    | null => rfl
    | @written a w written =>
        have nonempty : w ≠ .null := by
          rintro rfl
          exact filled a written
        rw [optional_some nonempty, (each a w).mpr written, Option.map_some]

end Json

end EditorBridge
