import Mathlib.Data.List.Induction
import Mathlib.Data.String.Basic
import EditorBridge.Json.Record
import EditorBridge.Proofs.Json.Spelling

/-!
# Members of objects

What a reader finds in an object that is in normal form. The members of such an object are sorted,
and sorting them again changes nothing, so an object of written values is in normal form as soon as
the values are (`canonical_ofMembers`). A member is found under its name wherever it was put, and a
record that leaves out what has no value is read back with the same gaps (`optional_map`). Values
are exact if their parts are.
-/

namespace EditorBridge.Json

/-! ### Members by their names -/

theorem lookup_append (name : String) (first second : List (String × Json)) :
    lookup name (first ++ second) = (lookup name first).or (lookup name second) := by
  induction first with
  | nil => rfl
  | cons member first ih =>
      obtain ⟨key, value⟩ := member
      rw [List.cons_append, lookup, lookup, ih]
      split <;> rfl

theorem lookup_eq_none {name : String} {members : List (String × Json)}
    (absent : name ∉ members.map Prod.fst) : lookup name members = none := by
  induction members with
  | nil => rfl
  | cons member members ih =>
      obtain ⟨key, value⟩ := member
      rw [List.map_cons, List.mem_cons, not_or] at absent
      rw [lookup, if_neg (Ne.symm absent.1), ih absent.2]

/-- It does not matter in which order members are written, if no name occurs twice. -/
theorem lookup_reverse {members : List (String × Json)}
    (distinct : (members.map Prod.fst).Nodup) (name : String) :
    lookup name members.reverse = lookup name members := by
  induction members with
  | nil => rfl
  | cons member members ih =>
      obtain ⟨key, value⟩ := member
      obtain ⟨fresh, others⟩ := List.nodup_cons.mp distinct
      rw [List.reverse_cons, lookup_append, ih others, lookup, lookup, lookup]
      by_cases here : key = name
      · rw [← here, lookup_eq_none fresh, if_pos rfl, Option.none_or]
      · rw [if_neg here, if_neg here, Option.or_none]

theorem sortMembers_concat (members : List (String × Json)) (name : String) (value : Json) :
    sortMembers (members ++ [(name, value)]) = insert name value (sortMembers members) := by
  rw [sortMembers, List.foldl_append, List.foldl_cons, List.foldl_nil, sortMembers]

/-- The last of several members with a name is the one in the normal form. -/
theorem lookup_sortMembers (name : String) (members : List (String × Json)) :
    lookup name (sortMembers members) = lookup name members.reverse := by
  induction members using List.reverseRecOn with
  | nil => rfl
  | append_singleton members last ih =>
      obtain ⟨key, value⟩ := last
      rw [sortMembers_concat, List.reverse_concat, lookup]
      by_cases same : key = name
      · rw [if_pos same, same, lookup_insert_self]
      · rw [if_neg same, lookup_insert_of_ne _ _ _ _ (Ne.symm same), ih]

theorem members?_ofMembers (names : List String) (defaulted : Nat)
    (members : List (String × Json)) :
    (ofMembers members).members? names defaulted =
      some (names.map (lookup · members.reverse)) := by
  simp only [ofMembers, members?, lookup_sortMembers]

/-! ### Members that may be missing -/

section Optional

variable {α : Type} {read : Json → Option α} {write : α → Json}

theorem reverse_field? (name : String) (value : Option α) :
    (field? name write value).reverse = field? name write value := by
  cases value <;> rfl

theorem lookup_field? (name other : String) (value : Option α) :
    lookup name (field? other write value) = if other = name then value.map write else none := by
  cases value with
  | none => simp [field?, lookup]
  | some a => simp [field?, lookup]

theorem optional_some {v : Json} (filled : v ≠ null) :
    optional read (some v) = (read v).map some := by
  rw [optional]
  exact filled

/-- A value that was left out is read as none, and one that was written comes back. -/
theorem optional_map (reads : ∀ a, read (write a) = some a) (filled : ∀ a, write a ≠ null)
    (value : Option α) : optional read (value.map write) = some value := by
  cases value with
  | none => rfl
  | some a =>
      rw [Option.map_some, optional_some (filled a), reads, Option.map_some]

end Optional

/-! ### The normal form -/

/-- Whether members are sorted by name and no name occurs twice. -/
def Sorted (members : List (String × Json)) : Prop :=
  members.Pairwise (·.1 < ·.1)

theorem mem_insert {name : String} {value : Json} {members : List (String × Json)}
    {member : String × Json} (inside : member ∈ insert name value members) :
    member = (name, value) ∨ member ∈ members := by
  induction members with
  | nil => simpa [insert] using inside
  | cons first rest ih =>
      obtain ⟨key, old⟩ := first
      simp only [insert] at inside
      split at inside
      · simpa using inside
      split at inside
      · rcases List.mem_cons.mp inside with new | later
        · exact .inl new
        · exact .inr (List.mem_cons_of_mem _ later)
      · rcases List.mem_cons.mp inside with rfl | later
        · exact .inr List.mem_cons_self
        · exact (ih later).imp_right (List.mem_cons_of_mem _)

theorem sorted_insert {name : String} {value : Json} {members : List (String × Json)}
    (sorted : Sorted members) : Sorted (insert name value members) := by
  induction members with
  | nil => exact List.pairwise_singleton _ _
  | cons first rest ih =>
      obtain ⟨key, old⟩ := first
      obtain ⟨least, others⟩ := List.pairwise_cons.mp sorted
      simp only [insert]
      split
      · next before =>
          refine List.pairwise_cons.mpr ⟨fun member inside => ?_, sorted⟩
          rcases List.mem_cons.mp inside with rfl | later
          · exact before
          · exact lt_trans before (least member later)
      · next notBefore =>
          split
          · next same => exact List.pairwise_cons.mpr ⟨same ▸ least, others⟩
          · next different =>
              refine List.pairwise_cons.mpr ⟨fun member inside => ?_, ih others⟩
              rcases mem_insert inside with rfl | later
              · exact lt_of_le_of_ne (not_lt.mp notBefore) (Ne.symm different)
              · exact least member later

theorem sorted_sortMembers (members : List (String × Json)) : Sorted (sortMembers members) := by
  induction members using List.reverseRecOn with
  | nil => exact List.Pairwise.nil
  | append_singleton members last ih =>
      rw [sortMembers_concat]
      exact sorted_insert ih

/-- A member whose name comes after all others is put last. -/
theorem insert_last {name : String} {value : Json} {members : List (String × Json)}
    (last : ∀ member ∈ members, member.1 < name) :
    insert name value members = members ++ [(name, value)] := by
  induction members with
  | nil => rfl
  | cons first rest ih =>
      obtain ⟨key, old⟩ := first
      have before : key < name := last (key, old) List.mem_cons_self
      rw [insert, if_neg (not_lt.mpr before.le), if_neg before.ne', List.cons_append,
        ih fun member inside => last member (List.mem_cons_of_mem _ inside)]

theorem sortMembers_of_sorted {members : List (String × Json)} (sorted : Sorted members) :
    sortMembers members = members := by
  induction members using List.reverseRecOn with
  | nil => rfl
  | append_singleton members last ih =>
      obtain ⟨front, -, before⟩ := List.pairwise_append.mp sorted
      rw [sortMembers_concat, ih front]
      exact insert_last fun member inside => before member inside last List.mem_cons_self

theorem canonical_string (s : String) : (string s).canonical = string s := by
  simp [canonical]

theorem canonical_int (n : Int) : (int n).canonical = int n := by
  simp [canonical]

theorem canonicalMembers_append (first second : List (String × Json)) :
    canonicalMembers (first ++ second) = canonicalMembers first ++ canonicalMembers second := by
  induction first with
  | nil => rfl
  | cons member first ih =>
      obtain ⟨name, value⟩ := member
      rw [List.cons_append, canonicalMembers, canonicalMembers, ih, List.cons_append]

theorem canonicalMembers_insert (name : String) (value : Json) (members : List (String × Json)) :
    canonicalMembers (insert name value members) =
      insert name value.canonical (canonicalMembers members) := by
  induction members with
  | nil => rfl
  | cons first rest ih =>
      obtain ⟨key, old⟩ := first
      simp only [insert, canonicalMembers]
      split
      · rfl
      split
      · rfl
      · rw [canonicalMembers, ih]

theorem canonicalMembers_sortMembers (members : List (String × Json)) :
    canonicalMembers (sortMembers members) = sortMembers (canonicalMembers members) := by
  induction members using List.reverseRecOn with
  | nil => rfl
  | append_singleton members last ih =>
      obtain ⟨name, value⟩ := last
      rw [sortMembers_concat, canonicalMembers_insert, ih, canonicalMembers_append,
        canonicalMembers, canonicalMembers, sortMembers_concat]

/-- An object of members is in normal form up to the values of the members. -/
theorem canonical_ofMembers (members : List (String × Json)) :
    (ofMembers members).canonical = ofMembers (canonicalMembers members) := by
  rw [ofMembers, canonical, canonicalMembers_sortMembers, ofMembers,
    sortMembers_of_sorted (sorted_sortMembers _), ofMembers]

theorem canonicalMembers_field? {α : Type} {write : α → Json} (name : String)
    (normal : ∀ a, (write a).canonical = write a) (value : Option α) :
    canonicalMembers (field? name write value) = field? name write value := by
  cases value with
  | none => rfl
  | some a => rw [field?, canonicalMembers, normal, canonicalMembers]

theorem lookup_canonicalMembers (name : String) (members : List (String × Json)) :
    lookup name (canonicalMembers members) = (lookup name members).map canonical := by
  induction members with
  | nil => rfl
  | cons member members ih =>
      obtain ⟨key, value⟩ := member
      rw [canonicalMembers, lookup, lookup, ih]
      split <;> rfl

theorem names_canonicalMembers (members : List (String × Json)) :
    (canonicalMembers members).map Prod.fst = members.map Prod.fst := by
  induction members with
  | nil => rfl
  | cons member members ih =>
      obtain ⟨name, value⟩ := member
      rw [canonicalMembers, List.map_cons, List.map_cons, ih]

/-- Whether no name occurs twice among the members of an object. -/
def IsDistinct : Json → Prop
  | object members => (members.map Prod.fst).Nodup
  | _ => True

theorem isDistinct_of_normal {v : Json} (normal : v.canonical = v) : v.IsDistinct := by
  cases v with
  | object members =>
      rw [canonical] at normal
      rw [IsDistinct, ← Json.object.inj normal]
      exact List.pairwise_map.mpr ((sorted_sortMembers _).imp ne_of_lt)
  | _ => trivial

/-- The normal form of an object has the members of the object, each in normal form. -/
theorem get?_canonical {v : Json} (distinct : v.IsDistinct) (name : String) :
    v.canonical.get? name = (v.get? name).map canonical := by
  cases v with
  | object members =>
      rw [canonical, ofMembers, get?, lookup_sortMembers,
        lookup_reverse (by rwa [names_canonicalMembers]), lookup_canonicalMembers, get?]
  | _ => simp [canonical, get?]

theorem get?_canonical_of_get? {v w : Json} {name : String} (distinct : v.IsDistinct)
    (found : v.get? name = some w) (normal : w.canonical = w) :
    v.canonical.get? name = some w := by
  rw [get?_canonical distinct, found, Option.map_some, normal]

/-- The members of a value in normal form are in normal form. -/
theorem normal_of_get? {v w : Json} (normal : v.canonical = v) {name : String}
    (found : v.get? name = some w) : w.canonical = w := by
  have same := get?_canonical (isDistinct_of_normal normal) name
  rw [normal, found, Option.map_some] at same
  exact (Option.some.inj same).symm

theorem normal_of_mem {items : List Json} {w : Json}
    (normal : canonicalItems items = items) (inside : w ∈ items) : w.canonical = w := by
  induction items with
  | nil => cases inside
  | cons item items ih =>
      rw [canonicalItems] at normal
      obtain ⟨first, others⟩ := List.cons.inj normal
      rcases List.mem_cons.mp inside with rfl | later
      · exact first
      · exact ih others later

/-! ### Exact values -/

theorem isExact_string (depth : Nat) (s : String) : isExact depth (.string s) = true := rfl

theorem isExact_bool (depth : Nat) (b : Bool) : isExact depth (.bool b) = true := rfl

theorem isExact_array (depth : Nat) (items : List Json) :
    isExact (depth + 1) (.array items) = areExact depth items := by
  simp [isExact]

theorem isExact_object (depth : Nat) (members : List (String × Json)) :
    isExact (depth + 1) (.object members) = areExactMembers depth members := by
  simp [isExact]

theorem isExact_int {depth : Nat} {n : Int} (least : Int64.minValue.toInt ≤ n)
    (most : n < UInt64.size) : isExact depth (.int n) = true := by
  rw [isExact, Bool.and_eq_true, decide_eq_true_eq, decide_eq_true_eq]
  exact ⟨least, most⟩

theorem isExact_int64 (depth : Nat) (n : Int64) : isExact depth (.int n.toInt) = true := by
  have most := n.toInt_lt
  have size : (UInt64.size : Int) = 2 ^ 64 := rfl
  exact isExact_int n.minValue_le_toInt (by omega)

theorem isExact_int32 (depth : Nat) (n : Int32) : isExact depth (.int n.toInt) = true := by
  have least := n.le_toInt
  have most := n.toInt_lt
  have low := Int64.toInt_minValue
  have size : (UInt64.size : Int) = 2 ^ 64 := rfl
  exact isExact_int (by omega) (by omega)

theorem isExact_uint32 (depth : Nat) (n : UInt32) : isExact depth (.int n.toNat) = true := by
  have most := n.toNat_lt
  have low := Int64.toInt_minValue
  have size : (UInt64.size : Int) = 2 ^ 64 := rfl
  exact isExact_int (by omega) (by omega)

theorem areExact_map {α : Type} {depth : Nat} {write : α → Json}
    (exact : ∀ a, isExact depth (write a) = true) (items : List α) :
    areExact depth (items.map write) = true := by
  induction items with
  | nil => rfl
  | cons item items ih => rw [List.map_cons, areExact, exact item, ih, Bool.and_self]

theorem areExactMembers_append (depth : Nat) (first second : List (String × Json)) :
    areExactMembers depth (first ++ second) =
      (areExactMembers depth first && areExactMembers depth second) := by
  induction first with
  | nil => rfl
  | cons member first ih =>
      obtain ⟨name, value⟩ := member
      rw [List.cons_append, areExactMembers, areExactMembers, ih, Bool.and_assoc]

theorem areExactMembers_field? {α : Type} {depth : Nat} {write : α → Json} (name : String)
    (exact : ∀ a, isExact depth (write a) = true) (value : Option α) :
    areExactMembers depth (field? name write value) = true := by
  cases value with
  | none => rfl
  | some a => rw [field?, areExactMembers, exact a, areExactMembers, Bool.and_self]

theorem areExactMembers_insert {depth : Nat} {name : String} {value : Json}
    {members : List (String × Json)} (exact : isExact depth value = true)
    (others : areExactMembers depth members = true) :
    areExactMembers depth (insert name value members) = true := by
  induction members with
  | nil => simp [insert, areExactMembers, exact]
  | cons first rest ih =>
      obtain ⟨key, old⟩ := first
      obtain ⟨here, later⟩ := Bool.and_eq_true_iff.mp others
      simp only [insert]
      split
      · simp [areExactMembers, exact, here, later]
      split
      · simp [areExactMembers, exact, later]
      · simp [areExactMembers, here, ih later]

theorem areExactMembers_sortMembers {depth : Nat} {members : List (String × Json)}
    (exact : areExactMembers depth members = true) :
    areExactMembers depth (sortMembers members) = true := by
  induction members using List.reverseRecOn with
  | nil => rfl
  | append_singleton members last ih =>
      obtain ⟨name, value⟩ := last
      rw [areExactMembers_append, Bool.and_eq_true] at exact
      obtain ⟨front, here⟩ := exact
      rw [sortMembers_concat]
      exact areExactMembers_insert (Bool.and_eq_true_iff.mp here).1 (ih front)

theorem isExact_ofMembers {depth : Nat} {members : List (String × Json)}
    (exact : areExactMembers depth members = true) :
    isExact (depth + 1) (ofMembers members) = true := by
  rw [ofMembers, isExact_object]
  exact areExactMembers_sortMembers exact

end EditorBridge.Json
