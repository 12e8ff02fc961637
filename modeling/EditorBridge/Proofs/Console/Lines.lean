import EditorBridge.Reply
import EditorBridge.Proofs.Json.Members
import EditorBridge.Proofs.Json.RoundTrip

/-!
# Lines for the editor

Replies and events are written as one line each, which is read back as it was meant: a reply is a
line of the type `response` with its number and its command, an event is none. The text of a message
holds no line feed, since the printer escapes those of its strings.
-/

namespace EditorBridge

open Json

/-! ### Exact values -/

theorem Point.isExact_toJson (depth : Nat) (p : Point) : isExact (depth + 1) p.toJson = true := by
  simp only [Point.toJson, isExact_object, areExactMembers, isExact_uint32, Bool.and_self]

theorem Span.isExact_toJson (depth : Nat) (s : Span) : isExact (depth + 2) s.toJson = true := by
  simp only [Span.toJson, isExact_object, areExactMembers, isExact_string, Point.isExact_toJson,
    Bool.and_self]

theorem QuickInfo.isExact_toJson (depth : Nat) (q : QuickInfo) :
    isExact (depth + 2) q.toJson = true := by
  have texts := fun name (value : Option String) =>
    areExactMembers_field? name (isExact_string (depth + 1)) value
  have points := fun name (value : Option Point) =>
    areExactMembers_field? name (Point.isExact_toJson depth) value
  simp only [QuickInfo.toJson, isExact_object, areExactMembers_append, texts, points,
    Bool.and_self]

theorem Body.isExact_toJson (depth : Nat) (b : Body) : isExact (depth + 4) b.toJson = true := by
  cases b with
  | quickInfo info => exact QuickInfo.isExact_toJson (depth + 2) info
  | definition spans =>
      rw [Body.toJson, isExact_array]
      exact areExact_map (Span.isExact_toJson (depth + 1)) spans
  | references spans =>
      rw [Body.toJson, isExact_object, areExactMembers, isExact_array]
      rw [areExact_map (Span.isExact_toJson depth) spans, areExactMembers, Bool.and_self]

/-- Every reply is written with integers and a few levels of objects. -/
theorem Reply.isExact_toJson (r : Reply) : isExact maxDepth r.toJson = true := by
  have zero : isExact 126 (.int 0) = true := by decide
  have message := areExactMembers_field? "message" (isExact_string 126) r.message
  have body := areExactMembers_field? "body" (Body.isExact_toJson 122) r.body
  have depth : maxDepth = 126 + 1 := rfl
  rw [Reply.toJson, depth, isExact_object, areExactMembers_append, areExactMembers_append,
    areExactMembers_append, message, body]
  simp only [areExactMembers, zero, isExact_int64, isExact_bool, isExact_string, Bool.and_self]

theorem Finding.isExact_toJson (depth : Nat) (f : Finding) :
    isExact (depth + 2) f.toJson = true := by
  simp only [Finding.toJson, isExact_object, areExactMembers, isExact_string,
    Point.isExact_toJson, Bool.and_self]

/-- Every event is written with integers and a few levels of objects. -/
theorem Event.isExact_toJson (e : Event) : isExact maxDepth e.toJson = true := by
  have zero : isExact 126 (.int 0) = true := by decide
  have file := areExactMembers_field? "file" (isExact_string 125) e.file
  have findings := areExact_map (Finding.isExact_toJson 122) e.findings
  have depth : maxDepth = 124 + 1 + 1 + 1 := rfl
  rw [Event.toJson, depth, isExact_object]
  simp only [areExactMembers, isExact_object, areExactMembers_append, zero, file,
    isExact_array, findings, isExact_string, Bool.and_self]

/-! ### One line each -/

namespace Json

theorem lineFeed_notMem_escape (c : Char) : '\n' ∉ escape c := by
  have digit : ∀ n, n < 16 → '\n' ≠ Text.Hex.digit n := by decide
  unfold escape
  split
  · decide
  split
  · decide
  split
  · decide
  split
  · decide
  split
  · decide
  split
  · decide
  split
  · decide
  split
  · next control =>
      simp only [List.mem_cons, List.not_mem_nil, or_false, not_or]
      exact ⟨by decide, by decide, by decide, by decide, digit _ (by omega), digit _ (by omega)⟩
  · next other _ _ _ _ _ => exact fun same => other (List.mem_singleton.mp same).symm

theorem lineFeed_notMem_quote (s : String) : '\n' ∉ quote s := by
  simp only [quote, List.mem_cons, List.mem_append, List.mem_flatMap, List.not_mem_nil, or_false,
    not_or, not_exists, not_and]
  exact ⟨by decide, fun c _ => lineFeed_notMem_escape c, by decide⟩

theorem lineFeed_notMem_integer (n : Int) : '\n' ∉ Numeral.integer n := by
  have digits : '\n' ∉ Numeral.digits n.natAbs := fun inside =>
    absurd (List.all_eq_true.mp (Numeral.all_isDigit_digits _) _ inside) (by decide)
  unfold Numeral.integer
  split
  · exact fun inside => (List.mem_cons.mp inside).elim (by decide) digits
  · exact digits

mutual

/-- The text of an exact value is one line. -/
theorem lineFeed_notMem_chars : ∀ (v : Json) (depth : Nat), isExact depth v = true → '\n' ∉ v.chars
  | .null, _, _ => by simp [chars]
  | .bool true, _, _ => by simp [chars]
  | .bool false, _, _ => by simp [chars]
  | .float _, _, exact => by simp [isExact] at exact
  | .int n, _, _ => lineFeed_notMem_integer n
  | .string s, _, _ => lineFeed_notMem_quote s
  | .array [], _, _ => by simp [chars]
  | .array (item :: items), depth, exact => by
      simp only [isExact, areExact, Bool.and_eq_true] at exact
      simp [chars, lineFeed_notMem_chars item _ exact.2.1,
        lineFeed_notMem_itemChars items _ exact.2.2]
  | .object [], _, _ => by simp [chars]
  | .object ((name, value) :: members), depth, exact => by
      simp only [isExact, areExactMembers, Bool.and_eq_true] at exact
      simp [chars, lineFeed_notMem_quote, lineFeed_notMem_chars value _ exact.2.1,
        lineFeed_notMem_memberChars members _ exact.2.2]

theorem lineFeed_notMem_itemChars : ∀ (items : List Json) (depth : Nat),
    areExact depth items = true → '\n' ∉ itemChars items
  | [], _, _ => by simp [itemChars]
  | item :: items, depth, exact => by
      simp only [areExact, Bool.and_eq_true] at exact
      simp [itemChars, lineFeed_notMem_chars item _ exact.1,
        lineFeed_notMem_itemChars items _ exact.2]

theorem lineFeed_notMem_memberChars : ∀ (members : List (String × Json)) (depth : Nat),
    areExactMembers depth members = true → '\n' ∉ memberChars members
  | [], _, _ => by simp [memberChars]
  | (name, value) :: members, depth, exact => by
      simp only [areExactMembers, Bool.and_eq_true] at exact
      simp [memberChars, lineFeed_notMem_quote, lineFeed_notMem_chars value _ exact.1,
        lineFeed_notMem_memberChars members _ exact.2]

end

theorem lineFeed_notMem_render {v : Json} (exact : isExact maxDepth v = true) :
    '\n' ∉ v.render.toList := by
  simpa [render] using lineFeed_notMem_chars v maxDepth exact

end Json

/-! ### Reading lines -/

namespace Console

/-- What a line of the type `response` says: the number and the command that it answers, as far as
it names them. -/
def response? (line : String) : Option (Option Int64 × Option String) :=
  (Json.parse? line).bind fun v =>
    if (v.get? "type").bind Json.string? = some "response" then
      some ((v.get? "request_seq").bind Json.int64?, (v.get? "command").bind Json.string?)
    else none

/-- A written reply is a response with its number and its command. -/
theorem response?_reply (r : Reply) :
    response? r.toJson.render = some (some r.requestSeq, some r.command) := by
  have members : ∀ name, r.toJson.canonical.get? name =
      lookup name (canonicalMembers [("seq", .int 0), ("request_seq", .int r.requestSeq.toInt),
        ("success", .bool r.success), ("command", .string r.command)] ++
        (canonicalMembers (Json.field? "message" .string r.message) ++
          (canonicalMembers (Json.field? "body" Body.toJson r.body) ++
            [("type", Json.string "response")]))).reverse := by
    intro name
    rw [Reply.toJson, canonical, ofMembers, get?, lookup_sortMembers, canonicalMembers_append,
      canonicalMembers_append, canonicalMembers_append]
    simp [canonicalMembers, canonical]
  have others : ∀ name, name ≠ "message" → name ≠ "body" →
      lookup name (canonicalMembers (Json.field? "message" .string r.message)).reverse = none ∧
        lookup name (canonicalMembers (Json.field? "body" Body.toJson r.body)).reverse = none := by
    intro name notMessage notBody
    constructor
    · cases r.message <;> simp [Json.field?, canonicalMembers, lookup, Ne.symm notMessage]
    · cases r.body <;> simp [Json.field?, canonicalMembers, lookup, Ne.symm notBody]
  have number := others "request_seq" (by decide) (by decide)
  have command := others "command" (by decide) (by decide)
  rw [response?, parse?_render r.isExact_toJson, Option.bind_some, members, members, members]
  simp [lookup_append, lookup, canonicalMembers, canonical, number, command, Json.string?,
    int64?_int]

/-- A written event is no response. -/
theorem response?_event (e : Event) : response? e.toJson.render = none := by
  have kind : (e.toJson.canonical.get? "type").bind Json.string? = some "event" := by
    rw [Event.toJson, canonical, ofMembers, get?, lookup_sortMembers]
    simp [canonicalMembers, canonical, lookup, Json.string?]
  rw [response?, parse?_render e.isExact_toJson, Option.bind_some, kind]
  simp

end Console

end EditorBridge
