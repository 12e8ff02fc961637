import EditorBridge.Bridge.Outbound
import EditorBridge.Practice.Server
import EditorBridge.Proofs.Json.Members
import EditorBridge.Proofs.Json.RoundTrip

/-!
# Messages as they are read

What a server reads in the text of a message. The arguments of every command are exact and in normal
form (`Request.kept_toParams?`), so nothing is lost in the text, and whoever takes a message apart
finds the id, the method and the arguments that were put in (`Practice.Message.parse?_toJson`). A
server reads the members it knows straight from the text and skips the others, which makes no
difference as long as no member is written twice.
-/

namespace EditorBridge

namespace Json

/-! ### Values that a text keeps -/

/-- Whether a value comes back from its text as it was: it is exact and in normal form. -/
structure Kept (depth : Nat) (v : Json) : Prop where
  exact : v.isExact depth = true
  normal : v.canonical = v

theorem kept_string (depth : Nat) (s : String) : Kept depth (.string s) :=
  ⟨isExact_string depth s, canonical_string s⟩

theorem kept_bool (depth : Nat) (b : Bool) : Kept depth (.bool b) :=
  ⟨isExact_bool depth b, by simp [canonical]⟩

theorem kept_int32 (depth : Nat) (n : Int32) : Kept depth (.int n.toInt) :=
  ⟨isExact_int32 depth n, canonical_int _⟩

theorem kept_uint32 (depth : Nat) (n : UInt32) : Kept depth (.int n.toNat) :=
  ⟨isExact_uint32 depth n, canonical_int _⟩

theorem kept_ofMembers {depth : Nat} {members : List (String × Json)}
    (kept : ∀ member ∈ members, Kept depth member.2) : Kept (depth + 1) (ofMembers members) := by
  have all : areExactMembers depth members = true ∧ canonicalMembers members = members := by
    induction members with
    | nil => exact ⟨rfl, rfl⟩
    | cons member members ih =>
        obtain ⟨name, value⟩ := member
        have first := kept (name, value) List.mem_cons_self
        obtain ⟨exact, normal⟩ :=
          ih fun member inside => kept member (List.mem_cons_of_mem _ inside)
        rw [areExactMembers, canonicalMembers, first.exact, first.normal, exact, normal]
        exact ⟨rfl, rfl⟩
  exact ⟨isExact_ofMembers all.1, by rw [canonical_ofMembers, all.2]⟩

theorem kept_singleton {depth : Nat} {v : Json} (kept : Kept depth v) :
    Kept (depth + 1) (.array [v]) :=
  ⟨by rw [isExact_array, areExact, areExact, kept.exact, Bool.and_self],
    by rw [canonical, canonicalItems, canonicalItems, kept.normal]⟩

/-! ### Texts of objects -/

namespace Source

/-- The grammar finds the spelling of an exact value in its text. -/
theorem read?_chars {v : Json} (exact : v.isExact maxDepth = true) :
    read? v.chars = some (ofValue v) := by
  have found := readValue_chars v (3 * v.chars.length + 3) [] exact (by omega)
    (by intro c h; simp at h)
  have noGap := skipGap_chars exact []
  rw [List.append_nil] at found noGap
  rw [read?, noGap, found]
  rfl

/-- What is left of an object of which some members are known. -/
theorem narrow_ofNamed {names : List String} {members : List (String × Json)}
    (once : repeats names (members.map Prod.fst) = false) :
    narrow names (.object (ofNamed members)) =
      some (.object (ofNamed (members.filter fun member => names.contains member.1))) := by
  have keys : (ofNamed members).mapM (fun member => text? member.1) =
      some (members.map Prod.fst) := by
    clear once
    induction members with
    | nil => rfl
    | cons member members ih =>
        rw [ofNamed, List.mapM_cons, text?_escaped, ih]
        rfl
  have known : ∀ members : List (String × Json),
      (((members.map Prod.fst).zip (ofNamed members)).filter
        fun pair => names.contains pair.1).map Prod.snd =
        ofNamed (members.filter fun member => names.contains member.1) := by
    intro members
    induction members with
    | nil => rfl
    | cons member members ih =>
        rw [ofNamed, List.map_cons, List.zip_cons_cons, List.filter_cons, List.filter_cons]
        split
        · rw [List.map_cons, ih, ofNamed]
        · exact ih
  rw [narrow, keys, Option.bind_some, once, ← known]
  rfl

end Source

end Json

open Json

/-! ### Arguments -/

theorem Server.Position.kept_toJson (depth : Nat) (p : Position) :
    Kept (depth + 1) p.toJson := by
  refine kept_ofMembers fun member inside => ?_
  simp only [List.mem_cons, List.not_mem_nil, or_false] at inside
  rcases inside with rfl | rfl
  · exact kept_uint32 depth _
  · exact kept_uint32 depth _

theorem Server.Range.kept_toJson (depth : Nat) (r : Range) : Kept (depth + 2) r.toJson := by
  refine kept_ofMembers fun member inside => ?_
  simp only [List.mem_cons, List.not_mem_nil, or_false] at inside
  rcases inside with rfl | rfl
  · exact r.start.kept_toJson depth
  · exact r.finish.kept_toJson depth

theorem Spot.kept_toParams? {s : Spot} {members : List (String × Json)} (depth : Nat)
    (said : s.toParams? = some members) : ∀ member ∈ members, Kept (depth + 1) member.2 := by
  obtain ⟨uri, named, said⟩ := Option.bind_eq_some_iff.mp said
  obtain ⟨position, counted, rfl⟩ := Option.map_eq_some_iff.mp said
  intro member inside
  simp only [List.mem_cons, List.not_mem_nil, or_false] at inside
  rcases inside with rfl | rfl
  · exact @kept_ofMembers depth [("uri", .string uri)] (by simp [kept_string])
  · exact position.kept_toJson depth

theorem OpenedFile.kept_toParams? {o : OpenedFile} {params : Json} (depth : Nat)
    (said : o.toParams? = some params) : Kept (depth + 2) params := by
  obtain ⟨uri, named, rfl⟩ := Option.map_eq_some_iff.mp said
  refine @kept_ofMembers (depth + 1) [("textDocument", _)] ?_
  simp only [List.mem_singleton, forall_eq]
  exact kept_ofMembers (by simp [kept_string, kept_int32])

theorem Edit.kept_toParams? {e : Edit} {params : Json} (depth : Nat)
    (said : e.toParams? = some params) : Kept (depth + 5) params := by
  obtain ⟨uri, named, said⟩ := Option.bind_eq_some_iff.mp said
  obtain ⟨range, ranged, rfl⟩ := Option.map_eq_some_iff.mp said
  have document : Kept (depth + 4) (.ofMembers [("uri", .string uri),
      ("version", .int (e.version.getD defaultChangeVersion).toInt)]) :=
    kept_ofMembers (by simp [kept_string, kept_int32])
  have change : Kept (depth + 3) (.ofMembers
      (field? "range" Server.Range.toJson range ++ [("text", .string e.insertString)])) := by
    refine kept_ofMembers fun member inside => ?_
    rcases List.mem_append.mp inside with here | here
    · cases range with
      | none => cases here
      | some r =>
          rw [List.mem_singleton.mp here]
          exact r.kept_toJson depth
    · rw [List.mem_singleton.mp here]
      exact kept_string _ _
  refine kept_ofMembers fun member inside => ?_
  simp only [List.mem_cons, List.not_mem_nil, or_false] at inside
  rcases inside with rfl | rfl
  · exact document
  · exact kept_singleton change

/-- The arguments of every message are kept by its text. -/
theorem Request.kept_toParams? {r : Request} {params : Json} (depth : Nat)
    (said : r.toParams? = some params) : Kept (depth + 5) params := by
  cases r with
  | quickInfo spot =>
      obtain ⟨members, found, rfl⟩ := Option.map_eq_some_iff.mp said
      exact kept_ofMembers (spot.kept_toParams? (depth + 3) found)
  | definition spot =>
      obtain ⟨members, found, rfl⟩ := Option.map_eq_some_iff.mp said
      exact kept_ofMembers (spot.kept_toParams? (depth + 3) found)
  | references spot =>
      obtain ⟨members, found, rfl⟩ := Option.map_eq_some_iff.mp said
      refine kept_ofMembers fun member inside => ?_
      rcases List.mem_append.mp inside with here | here
      · exact spot.kept_toParams? (depth + 3) found member here
      · rw [List.mem_singleton.mp here]
        exact @kept_ofMembers (depth + 3) [("includeDeclaration", .bool false)]
          (by simp [kept_bool])
  | openFile opened => exact opened.kept_toParams? (depth + 3) said
  | changeFile edit => exact edit.kept_toParams? depth said

/-! ### Messages -/

/-- The message of a command has its method, its number if it is answered, and arguments that are
kept by a text. -/
theorem Command.exists_params {c : Command} {m : Rpc.Outgoing} (said : c.toMessage? = some m) :
    ∃ params, c.request.toParams? = some params ∧
      m = if c.kind.isQuery then .call (.of (.number c.seq) c.kind.method params)
        else .notification (.of c.kind.method params) := by
  obtain ⟨params, found, rfl⟩ := Option.map_eq_some_iff.mp said
  exact ⟨params, found, rfl⟩

/-- The message in the text of an object is the one that its known members make. -/
theorem Practice.Message.parse?_chars {members : List (String × Json)}
    (exact : isExact maxDepth (.object members) = true)
    (once : Source.repeats names (members.map Prod.fst) = false) :
    parse? (Json.object members).chars =
      ofJson? (.ofMembers (canonicalMembers (members.filter fun member =>
        names.contains member.1))) := by
  have known : areExactMembers (maxDepth - 1)
      (members.filter fun member => names.contains member.1) = true := by
    rw [show maxDepth = maxDepth - 1 + 1 from rfl, isExact_object] at exact
    clear once
    induction members with
    | nil => rfl
    | cons member members ih =>
        obtain ⟨here, later⟩ := Bool.and_eq_true_iff.mp exact
        rw [List.filter_cons]
        split
        · rw [areExactMembers, here, ih later, Bool.and_self]
        · exact ih later
  have means := ofSource_ofValue (.object (members.filter fun member => names.contains member.1))
    maxDepth (by rw [show maxDepth = maxDepth - 1 + 1 from rfl, isExact_object, known])
  rw [Source.ofValue, canonical] at means
  rw [parse?, Source.read?_chars exact, Option.bind_some, Source.ofValue,
    Source.narrow_ofNamed once, Option.bind_some, means, Option.bind_some]

/-- A server that reads the text of a command's message finds the id, the method and the arguments
of the message. -/
theorem Practice.Message.parse?_toJson {c : Command} {m : Rpc.Outgoing}
    (said : c.toMessage? = some m) :
    parse? m.toJson.chars =
      some ⟨m.id?.map Rpc.RequestId.toJson, some m.method, m.params, none⟩ := by
  obtain ⟨params, found, rfl⟩ := Command.exists_params said
  have kept : Kept (maxDepth - 1) params := Request.kept_toParams? 121 found
  have depth : maxDepth = maxDepth - 1 + 1 := rfl
  by_cases query : c.kind.isQuery = true
  · have exact : isExact maxDepth (Rpc.Call.of (.number c.seq) c.kind.method params).toJson =
        true := by
      rw [depth, Rpc.Call.toJson, isExact_object]
      simp only [areExactMembers, Rpc.Call.of, isExact_string, Rpc.RequestId.toJson, isExact_int64,
        kept.exact, Bool.and_self]
    rw [if_pos query]
    refine (parse?_chars exact rfl).trans ?_
    simp [names, Rpc.Call.of, Rpc.RequestId.toJson, canonicalMembers, canonical_string,
      canonical_int, kept.normal, ofJson?, members?_ofMembers, lookup, Json.optional, string?,
      orNull, Rpc.Outgoing.id?, Rpc.Outgoing.method, Rpc.Outgoing.params]
  · have exact : isExact maxDepth (Rpc.Notification.of c.kind.method params).toJson = true := by
      rw [depth, Rpc.Notification.toJson, isExact_object]
      simp only [areExactMembers, Rpc.Notification.of, isExact_string, kept.exact, Bool.and_self]
    rw [if_neg query]
    refine (parse?_chars exact rfl).trans ?_
    simp [names, Rpc.Notification.of, canonicalMembers, canonical_string, kept.normal, ofJson?,
      members?_ofMembers, lookup, Json.optional, string?, orNull, Rpc.Outgoing.id?,
      Rpc.Outgoing.method, Rpc.Outgoing.params]

end EditorBridge
