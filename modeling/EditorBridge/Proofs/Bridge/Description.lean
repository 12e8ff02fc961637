import EditorBridge.Proofs.Bridge.Echo
import EditorBridge.Proofs.Server.Forms

/-!
# Descriptions in parts

A server may describe a symbol in several parts, each of them a text alone or a text with the
language that it is written in. The editor is shown the text of the first part, the text of the
second one below it, and the range of the symbol counted from one. There is one list of parts for
which this is not so (`shows_description`): a pair of texts alone is read as one text with its
language, and only the second text is shown (`not_shows_plainPair`).
-/

namespace EditorBridge

open Json

namespace Server

/-! ### Given places -/

/-- Whether a value is an object that gives a position; it may give more. -/
def Position.IsGiven (p : Position) (v : Json) : Prop :=
  ∃ members, v = .object members ∧ lookup "line" members = some (.int p.line.toNat) ∧
    lookup "character" members = some (.int p.character.toNat)

/-- Whether a value is an object that gives a range; it may give more. -/
def Range.IsGiven (r : Range) (v : Json) : Prop :=
  ∃ members start finish, v = .object members ∧ lookup "start" members = some start ∧
    r.start.IsGiven start ∧ lookup "end" members = some finish ∧ r.finish.IsGiven finish

/-- Whether a member of an object gives a range, or is missing or null where there is none. -/
inductive Range.IsMember : Option Range → Option Json → Prop
  | missing : IsMember none none
  | null : IsMember none (some .null)
  | given {r : Range} {v : Json} (given : r.IsGiven v) : IsMember (some r) (some v)

/-- Whether a point is a position counted from one; the greatest coordinate stays. -/
def Position.Precedes (p : Position) (q : Point) : Prop :=
  q.line.toNat = min (p.line.toNat + 1) (UInt32.size - 1) ∧
    q.offset.toNat = min (p.character.toNat + 1) (UInt32.size - 1)

theorem Position.IsGiven.isWritten {p : Position} {v : Json} (given : p.IsGiven v) :
    p.IsWritten v := by
  obtain ⟨members, rfl, line, character⟩ := given
  simp [IsWritten, isRecord_object_iff, line, character]

theorem Range.IsGiven.isWritten {r : Range} {v : Json} (given : r.IsGiven v) :
    r.IsWritten v := by
  obtain ⟨members, start, finish, rfl, first, begins, last, ends⟩ := given
  refine ⟨start, finish, ?_, begins.isWritten, ends.isWritten⟩
  simp [isRecord_object_iff, first, last]

theorem Range.IsMember.read {range : Option Range} {v : Option Json}
    (member : Range.IsMember range v) : Json.optional Range.ofJson? v = some range := by
  cases member with
  | missing => rfl
  | null => rfl
  | given given => exact Range.optional_eq_some_iff.mpr (.written given.isWritten)

theorem Position.toNat_next (n : UInt32) :
    (next n).toNat = min (n.toNat + 1) (UInt32.size - 1) := by
  have bound := n.toNat_lt
  have size : UInt32.size = 2 ^ 32 := rfl
  rw [next]
  split
  · next full =>
      rw [full]
      rfl
  · next less =>
      have below : n.toNat ≠ 2 ^ 32 - 1 := fun same => less (UInt32.toNat_inj.mp same)
      rw [UInt32.toNat_add, UInt32.toNat_one, Nat.mod_eq_of_lt (by omega)]
      omega

theorem Position.precedes_toPoint (p : Position) : p.Precedes p.toPoint :=
  ⟨toNat_next _, toNat_next _⟩

/-! ### Parts of a description -/

/-- Whether a value is a part of a description with a text: the text alone, or an object with a
language and the text. -/
inductive IsPart : Json → String → Prop
  | plain (text : String) : IsPart (.string text) text
  | marked {members : List (String × Json)} {language text : String}
      (marks : lookup "language" members = some (.string language))
      (holds : lookup "value" members = some (.string text)) : IsPart (.object members) text

/-- Whether there are two parts and both are texts alone. -/
def isPlainPair : List Json → Bool
  | [.string _, .string _] => true
  | _ => false

variable {items : List Json} {texts : List String}

theorem IsPart.read {v : Json} {text : String} (part : IsPart v text) :
    markedText? v = some text := by
  cases part with
  | plain => rfl
  | marked marks holds => simp [markedText?, members?, marks, holds, required, string?]

/-- A list is read as one text with its language only if it is a pair of texts alone. -/
theorem isPlainPair_of_markedText? {text : String} (read : markedText? (.array items) = some text) :
    isPlainPair items = true := by
  rcases items with _ | ⟨first, _ | ⟨second, _ | ⟨third, more⟩⟩⟩
  · simp [markedText?, members?] at read
  · simp [markedText?, members?] at read
  · obtain ⟨language, marks, holds⟩ := Option.bind_eq_some_iff.mp read
    cases first <;> cases marks
    cases second <;> cases holds
    rfl
  · simp [markedText?, members?] at read

theorem description?_of_parts (parts : List.Forall₂ IsPart items texts) :
    description? (.array items) =
      some (if isPlainPair items = true then texts.drop 1 else texts) := by
  rw [description?]
  by_cases pair : isPlainPair items = true
  · rw [if_pos pair]
    unfold isPlainPair at pair
    split at pair
    · obtain - | ⟨⟨first⟩, rest⟩ := parts
      obtain - | ⟨⟨second⟩, rest⟩ := rest
      cases rest
      rfl
    · cases pair
  · have several : markedText? (.array items) = none := by
      rw [Option.eq_none_iff_forall_ne_some]
      intro text read
      exact pair (isPlainPair_of_markedText? read)
    rw [several, Json.listOf?_of_forall₂ (fun _ _ part => part.read) parts, if_neg pair]

end Server

/-! ### Replies -/

/-- Whether a response to a hover becomes the reply that shows the first of some texts, the second
one below it, and a range. -/
def Rpc.Response.Shows (r : Rpc.Response) (seq : Int64) (texts : List String)
    (range : Option Server.Range) : Prop :=
  ∃ info : QuickInfo,
    Reply.ofResponse? "textDocument/hover" r =
      some ⟨seq, true, "quickinfo", none, some (.quickInfo info)⟩ ∧
    info.displayString = texts[0]? ∧ info.documentation = texts[1]? ∧
    Option.Rel Server.Position.Precedes (range.map (·.start)) info.start ∧
    Option.Rel Server.Position.Precedes (range.map (·.finish)) info.finish

variable {r : Rpc.Response} {seq : Int64} {members : List (String × Json)} {items : List Json}
  {texts : List String} {range : Option Server.Range}

/-- The reply shows the first two of the texts, unless they are two and both alone; then it shows
the second one. -/
theorem Rpc.Response.shows_description (sameId : r.id = some (.number seq))
    (numbered : seq ≠ handshakeId) (found : r.result = some (.object members))
    (several : lookup "contents" members = some (.array items))
    (parts : List.Forall₂ Server.IsPart items texts)
    (ranged : Server.Range.IsMember range (lookup "range" members)) :
    r.Shows seq (if Server.isPlainPair items = true then texts.drop 1 else texts) range := by
  have hover : Server.Hover.ofJson? (.object members) =
      some ⟨if Server.isPlainPair items = true then texts.drop 1 else texts, range⟩ := by
    simp only [Server.Hover.ofJson?, members?, List.map_cons, List.map_nil, several, required,
      Server.description?_of_parts parts, ranged.read, Option.bind_some, Option.map_some]
  have reply := @Reply.ofResponse?_eq .quickInfo seq _ r numbered sameId found
  rw [Body.ofResult?, hover, Option.map_some, Option.map_some] at reply
  refine ⟨_, reply, rfl, rfl, ?_, ?_⟩
  · cases range with
    | none => exact .none
    | some range => exact .some range.start.precedes_toPoint
  · cases range with
    | none => exact .none
    | some range => exact .some range.finish.precedes_toPoint

/-- A result that describes a symbol at the end of the greatest line in three parts. -/
def threeParts : List (String × Json) :=
  [("contents", .array
      [.object [("language", .string "go"), ("value", .string "func Println")],
        .string "Println prints.", .string "More of it."]),
    ("range", Server.Range.toJson ⟨⟨4294967294, 5⟩, ⟨4294967295, 12⟩⟩)]

/-- The first two of three parts are shown, and the greatest line stays. -/
theorem Rpc.Response.shows_description_threeParts :
    Rpc.Response.Shows ⟨Rpc.version, some (.number 12), some (.object threeParts), none⟩ 12
      ["func Println", "Println prints.", "More of it."]
      (some ⟨⟨4294967294, 5⟩, ⟨4294967295, 12⟩⟩) := by
  have parts : List.Forall₂ Server.IsPart
      [.object [("language", .string "go"), ("value", .string "func Println")],
        .string "Println prints.", .string "More of it."]
      ["func Println", "Println prints.", "More of it."] :=
    .cons (.marked rfl rfl) (.cons (.plain _) (.cons (.plain _) .nil))
  have given : Server.Range.IsMember (some ⟨⟨4294967294, 5⟩, ⟨4294967295, 12⟩⟩)
      (lookup "range" threeParts) :=
    .given ⟨_, _, _, rfl, rfl, ⟨_, rfl, rfl, rfl⟩, rfl, ⟨_, rfl, rfl, rfl⟩⟩
  exact Rpc.Response.shows_description rfl (by decide) rfl rfl parts given

/-- Of two texts alone, the first one is not shown. -/
theorem Rpc.Response.not_shows_plainPair :
    List.Forall₂ Server.IsPart [.string "one", .string "two"] ["one", "two"] ∧
      ¬ Rpc.Response.Shows ⟨Rpc.version, some (.number 1), some (.object
          [("contents", .array [.string "one", .string "two"])]), none⟩ 1 ["one", "two"] none := by
  refine ⟨.cons (.plain _) (.cons (.plain _) .nil), ?_⟩
  rintro ⟨info, reply, first, -⟩
  have second : Reply.ofResponse? "textDocument/hover" ⟨Rpc.version, some (.number 1), some (.object
      [("contents", .array [.string "one", .string "two"])]), none⟩ =
        some ⟨1, true, "quickinfo", none, some (.quickInfo ⟨some "two", none, none, none⟩)⟩ := by
    decide
  rw [second] at reply
  cases reply
  exact absurd first (by decide)

end EditorBridge
