import EditorBridge.Proofs.Json.Forms
import EditorBridge.Rpc.Message

/-!
# Shapes of messages

Which values are messages, said without reading them. A request has a method and an id, a
notification has a method and no id, a response has an id and no method, and all of them give the
protocol version; whatever else a value has does not count. A value is read as a message just if it
is one that the message can be written as (`classify?_eq_some_iff`), so it belongs to the kind that
its shape shows and to none if it has no such shape. The written form of a message that was read is
one of these values, whether its members are in the order of the record or sorted, and so the
message is read again (`goesByShape`).
-/

namespace EditorBridge

namespace Json

/-- Whether a value is an object with a text under a name. -/
def HasText (name : String) (v : Json) : Prop :=
  ∃ text, v.get? name = some (.string text)

theorem exists_object {v w : Json} {name : String} (found : v.get? name = some w) :
    ∃ members, v = .object members := by
  cases v with
  | object members => exact ⟨members, rfl⟩
  | _ => cases found

end Json

namespace Rpc

open Json (IsRecord IsEntry MayBe HasText members?_eq_some_iff required_eq_some_iff)

variable {v : Json}

/-! ### Ids and failures -/

theorem RequestId.ofJson?_eq_some_iff {id : RequestId} : ofJson? v = some id ↔ v = id.toJson := by
  rw [ofJson?]
  cases id with
  | number n =>
      rw [toJson, ← Json.int64?_eq_some_iff]
      cases v.int64? <;> simp
  | text s =>
      rw [toJson, ← Json.string?_eq_some_iff]
      cases read : v.int64? with
      | none => simp
      | some n =>
          obtain rfl := Json.int64?_eq_some_iff.mp read
          simp [Json.string?]

theorem RequestId.toJson_ne_null (id : RequestId) : id.toJson ≠ .null := by
  cases id <;> exact Json.noConfusion

theorem RequestId.canonical_toJson (id : RequestId) : id.toJson.canonical = id.toJson := by
  cases id with
  | number n => exact Json.canonical_int _
  | text s => exact Json.canonical_string s

/-- Whether a value is an id: an integer of 64 bits with a sign, or a text. -/
def IsId (v : Json) : Prop :=
  (∃ n : Int64, v = .int n.toInt) ∨ ∃ text, v = .string text

theorem isId_iff : IsId v ↔ ∃ id : RequestId, v = id.toJson := by
  constructor
  · rintro (⟨n, rfl⟩ | ⟨text, rfl⟩)
    · exact ⟨.number n, rfl⟩
    · exact ⟨.text text, rfl⟩
  · rintro ⟨n | text, rfl⟩
    · exact .inl ⟨n, rfl⟩
    · exact .inr ⟨text, rfl⟩

/-- Whether a value is a failure. -/
def Failure.IsWritten (f : Failure) (v : Json) : Prop :=
  ∃ data, IsRecord names [some (.int f.code.toInt), some (.string f.message), data] v ∧
    f.data = data.filter (!·.isNull)

theorem Failure.ofJson?_eq_some_iff {f : Failure} : ofJson? v = some f ↔ f.IsWritten v := by
  constructor
  · intro found
    rw [ofJson?] at found
    split at found
    · next code message data form =>
        obtain ⟨n, first, found⟩ := Option.bind_eq_some_iff.mp found
        obtain ⟨text, second, found⟩ := Option.bind_eq_some_iff.mp found
        obtain ⟨rest, third, rfl⟩ := Option.map_eq_some_iff.mp found
        obtain ⟨code, rfl, first⟩ := required_eq_some_iff.mp first
        obtain ⟨message, rfl, second⟩ := required_eq_some_iff.mp second
        obtain rfl := Json.int64?_eq_some_iff.mp first
        obtain rfl := Json.string?_eq_some_iff.mp second
        rw [Json.optional_any] at third
        exact ⟨data, members?_eq_some_iff.mp form, (Option.some.inj third).symm⟩
    · cases found
  · rintro ⟨data, form, rest⟩
    obtain ⟨code, message, kept⟩ := f
    simp only at rest form
    simp [ofJson?, members?_eq_some_iff.mpr form, Json.required, Json.int64?_int, Json.string?,
      Json.optional_any, rest]

theorem Failure.optional_eq_some_iff {member : Option Json} {f : Option Failure} :
    Json.optional ofJson? member = some f ↔ IsEntry IsWritten f member := by
  refine Json.optional_eq_some_iff (fun _ _ => ofJson?_eq_some_iff) ?_
  intro f written
  cases ofJson?_eq_some_iff.mpr written

/-- Whether a value has the form of a failure: a code of 64 bits, a text, and maybe more. -/
def IsFailure (v : Json) : Prop :=
  ∃ (code : Int64) (message : String) (data : Option Json),
    IsRecord Failure.names [some (.int code.toInt), some (.string message), data] v

theorem exists_failure_iff (v : Json) : (∃ f, Failure.ofJson? v = some f) ↔ IsFailure v := by
  simp only [Failure.ofJson?_eq_some_iff]
  constructor
  · rintro ⟨f, data, form, -⟩
    exact ⟨f.code, f.message, data, form⟩
  · rintro ⟨code, message, data, form⟩
    exact ⟨⟨code, message, data.filter (!·.isNull)⟩, data, form, rfl⟩

/-! ### Messages -/

/-- Whether a value is a request. -/
structure Call.IsWritten (c : Call) (v : Json) : Prop where
  version : v.get? "jsonrpc" = some (.string c.jsonrpc)
  id : v.get? "id" = some c.id.toJson
  method : v.get? "method" = some (.string c.method)
  params : Json.orNull (v.get? "params") = c.params

/-- Whether a value is a notification. -/
structure Notification.IsWritten (n : Notification) (v : Json) : Prop where
  version : v.get? "jsonrpc" = some (.string n.jsonrpc)
  noId : ∀ id, v.get? "id" = some id → id = .null
  method : v.get? "method" = some (.string n.method)
  params : Json.orNull (v.get? "params") = n.params

/-- Whether a value is a response to a request with an id. -/
structure Response.IsWritten (r : Response) (v : Json) : Prop where
  version : v.get? "jsonrpc" = some (.string r.jsonrpc)
  noMethod : ¬ v.HasText "method"
  id : ∃ id, r.id = some id ∧ v.get? "id" = some id.toJson
  result : (v.get? "result").filter (!·.isNull) = r.result
  failure : IsEntry Failure.IsWritten r.failure (v.get? "error")

/-- Whether a value is a message. -/
def Incoming.IsWritten : Incoming → Json → Prop
  | response r => r.IsWritten
  | notification n => n.IsWritten
  | call c => c.IsWritten

namespace Incoming

theorem hasMethod_iff : hasMethod v = true ↔ v.HasText "method" := by
  rw [hasMethod, Json.HasText, Option.isSome_iff_exists]
  simp only [Option.bind_eq_some_iff, Json.string?_eq_some_iff]
  constructor
  · rintro ⟨text, w, found, rfl⟩
    exact ⟨text, found⟩
  · rintro ⟨text, found⟩
    exact ⟨text, _, found, rfl⟩

theorem hasId_iff : hasId v = true ↔ ∃ id, v.get? "id" = some id ∧ id ≠ .null := by
  rw [hasId]
  cases v.get? "id" with
  | none => simp
  | some id => cases id <;> simp [Json.isNull]

theorem hasId_eq_false_iff : hasId v = false ↔ ∀ id, v.get? "id" = some id → id = .null := by
  rw [← Bool.not_eq_true, hasId_iff]
  simp only [not_exists, not_and, not_not]

end Incoming

theorem Call.ofJson?_eq_some_iff {members : List (String × Json)} {c : Call} :
    ofJson? (.object members) = some c ↔ c.IsWritten (.object members) := by
  constructor
  · intro found
    obtain ⟨jsonrpc, first, found⟩ := Option.bind_eq_some_iff.mp found
    obtain ⟨id, second, found⟩ := Option.bind_eq_some_iff.mp found
    obtain ⟨method, third, rfl⟩ := Option.map_eq_some_iff.mp found
    obtain ⟨w, version, first⟩ := required_eq_some_iff.mp first
    obtain ⟨u, numbered, second⟩ := required_eq_some_iff.mp second
    obtain ⟨t, named, third⟩ := required_eq_some_iff.mp third
    obtain rfl := Json.string?_eq_some_iff.mp first
    obtain rfl := RequestId.ofJson?_eq_some_iff.mp second
    obtain rfl := Json.string?_eq_some_iff.mp third
    exact ⟨version, numbered, named, rfl⟩
  · rintro ⟨version, numbered, named, params⟩
    rw [Json.get?] at version numbered named params
    simp [ofJson?, Json.members?, Json.required, version, numbered, named, params, Json.string?,
      RequestId.ofJson?_eq_some_iff.mpr rfl]

theorem Notification.ofJson?_eq_some_iff {members : List (String × Json)} {n : Notification}
    (noId : ∀ id, (Json.object members).get? "id" = some id → id = .null) :
    ofJson? (.object members) = some n ↔ n.IsWritten (.object members) := by
  constructor
  · intro found
    obtain ⟨jsonrpc, first, found⟩ := Option.bind_eq_some_iff.mp found
    obtain ⟨method, second, rfl⟩ := Option.map_eq_some_iff.mp found
    obtain ⟨w, version, first⟩ := required_eq_some_iff.mp first
    obtain ⟨t, named, second⟩ := required_eq_some_iff.mp second
    obtain rfl := Json.string?_eq_some_iff.mp first
    obtain rfl := Json.string?_eq_some_iff.mp second
    exact ⟨version, noId, named, rfl⟩
  · rintro ⟨version, -, named, params⟩
    rw [Json.get?] at version named params
    simp [ofJson?, names, Json.members?, Json.required, version, named, params, Json.string?]

theorem Response.ofJson?_eq_some_iff {members : List (String × Json)} {r : Response}
    (noMethod : ¬ (Json.object members).HasText "method")
    (hasId : ∃ w, (Json.object members).get? "id" = some w ∧ w ≠ .null) :
    ofJson? (.object members) = some r ↔ r.IsWritten (.object members) := by
  obtain ⟨w, member, filled⟩ := hasId
  constructor
  · intro found
    obtain ⟨jsonrpc, first, found⟩ := Option.bind_eq_some_iff.mp found
    obtain ⟨id, second, found⟩ := Option.bind_eq_some_iff.mp found
    obtain ⟨result, third, found⟩ := Option.bind_eq_some_iff.mp found
    obtain ⟨failure, fourth, rfl⟩ := Option.map_eq_some_iff.mp found
    obtain ⟨u, version, first⟩ := required_eq_some_iff.mp first
    obtain rfl := Json.string?_eq_some_iff.mp first
    change Json.optional RequestId.ofJson? (Json.get? "id" (.object members)) = some id at second
    rw [member, Json.optional_some filled] at second
    obtain ⟨number, numbered, rfl⟩ := Option.map_eq_some_iff.mp second
    obtain rfl := RequestId.ofJson?_eq_some_iff.mp numbered
    rw [Json.optional_any] at third
    exact ⟨version, noMethod, ⟨number, rfl, member⟩, Option.some.inj third,
      Failure.optional_eq_some_iff.mp fourth⟩
  · obtain ⟨jsonrpc, number, result, failure⟩ := r
    rintro ⟨version, -, ⟨id, rfl, numbered⟩, rfl, failure⟩
    have failed := Failure.optional_eq_some_iff.mpr failure
    rw [Json.get?] at version numbered failed
    simp [ofJson?, names, Json.members?, Json.required, version, numbered, failed, Json.string?,
      Json.optional_any, Json.optional_some id.toJson_ne_null, Json.get?,
      RequestId.ofJson?_eq_some_iff.mpr rfl]

namespace Incoming

/-- A value is read as a message just if it is one. -/
theorem classify?_eq_some_iff {m : Incoming} : classify? v = some m ↔ m.IsWritten v := by
  constructor
  · intro found
    rw [classify?] at found
    split at found
    · next named numbered =>
        obtain ⟨c, read, rfl⟩ := Option.map_eq_some_iff.mp found
        obtain ⟨text, here⟩ := hasMethod_iff.mp named
        obtain ⟨members, rfl⟩ := Json.exists_object here
        exact Call.ofJson?_eq_some_iff.mp read
    · next named numbered =>
        obtain ⟨n, read, rfl⟩ := Option.map_eq_some_iff.mp found
        obtain ⟨text, here⟩ := hasMethod_iff.mp named
        obtain ⟨members, rfl⟩ := Json.exists_object here
        exact (Notification.ofJson?_eq_some_iff (hasId_eq_false_iff.mp numbered)).mp read
    · next named numbered =>
        obtain ⟨r, read, rfl⟩ := Option.map_eq_some_iff.mp found
        obtain ⟨id, here, filled⟩ := hasId_iff.mp numbered
        obtain ⟨members, rfl⟩ := Json.exists_object here
        have noMethod := mt hasMethod_iff.mpr (Bool.eq_false_iff.mp named)
        exact (Response.ofJson?_eq_some_iff noMethod ⟨id, here, filled⟩).mp read
    · cases found
  · cases m with
    | call c =>
        intro written
        obtain ⟨members, rfl⟩ := Json.exists_object written.id
        have named := hasMethod_iff.mpr ⟨c.method, written.method⟩
        have numbered := hasId_iff.mpr ⟨c.id.toJson, written.id, c.id.toJson_ne_null⟩
        rw [classify?, named, numbered, Call.ofJson?_eq_some_iff.mpr written, Option.map_some]
    | notification n =>
        intro written
        obtain ⟨members, rfl⟩ := Json.exists_object written.method
        have named := hasMethod_iff.mpr ⟨n.method, written.method⟩
        have numbered := hasId_eq_false_iff.mpr written.noId
        rw [classify?, named, numbered,
          (Notification.ofJson?_eq_some_iff written.noId).mpr written, Option.map_some]
    | response r =>
        intro written
        obtain ⟨id, -, here⟩ := written.id
        obtain ⟨members, rfl⟩ := Json.exists_object here
        have named := Bool.eq_false_iff.mpr (mt hasMethod_iff.mp written.noMethod)
        have hasId : ∃ w, (Json.object members).get? "id" = some w ∧ w ≠ .null :=
          ⟨id.toJson, here, id.toJson_ne_null⟩
        rw [classify?, named, hasId_iff.mpr hasId,
          (Response.ofJson?_eq_some_iff written.noMethod hasId).mpr written, Option.map_some]

end Incoming

/-! ### Kinds -/

/-- Whether a value has the shape of a request. -/
def IsCall (v : Json) : Prop :=
  v.HasText "jsonrpc" ∧ v.HasText "method" ∧ ∃ id, v.get? "id" = some id ∧ IsId id

/-- Whether a value has the shape of a notification. -/
def IsNotification (v : Json) : Prop :=
  v.HasText "jsonrpc" ∧ v.HasText "method" ∧ ∀ id, v.get? "id" = some id → id = .null

/-- Whether a value has the shape of a response. -/
def IsResponse (v : Json) : Prop :=
  v.HasText "jsonrpc" ∧ ¬ v.HasText "method" ∧ (∃ id, v.get? "id" = some id ∧ IsId id) ∧
    MayBe IsFailure (v.get? "error")

theorem exists_call_iff : (∃ c : Call, c.IsWritten v) ↔ IsCall v := by
  constructor
  · rintro ⟨c, version, id, method, -⟩
    exact ⟨⟨_, version⟩, ⟨_, method⟩, _, id, isId_iff.mpr ⟨_, rfl⟩⟩
  · rintro ⟨⟨jsonrpc, version⟩, ⟨method, named⟩, w, member, isId⟩
    obtain ⟨id, rfl⟩ := isId_iff.mp isId
    exact ⟨⟨jsonrpc, id, method, Json.orNull (v.get? "params")⟩, version, member, named, rfl⟩

theorem exists_notification_iff : (∃ n : Notification, n.IsWritten v) ↔ IsNotification v := by
  constructor
  · rintro ⟨n, version, noId, method, -⟩
    exact ⟨⟨_, version⟩, ⟨_, method⟩, noId⟩
  · rintro ⟨⟨jsonrpc, version⟩, ⟨method, named⟩, noId⟩
    exact ⟨⟨jsonrpc, method, Json.orNull (v.get? "params")⟩, version, noId, named, rfl⟩

theorem exists_response_iff : (∃ r : Response, r.IsWritten v) ↔ IsResponse v := by
  constructor
  · rintro ⟨r, version, noMethod, ⟨id, -, member⟩, -, failure⟩
    have failed := (Json.exists_optional_iff exists_failure_iff).mp
      ⟨_, Failure.optional_eq_some_iff.mpr failure⟩
    exact ⟨⟨_, version⟩, noMethod, ⟨_, member, isId_iff.mpr ⟨id, rfl⟩⟩, failed⟩
  · rintro ⟨⟨jsonrpc, version⟩, noMethod, ⟨w, member, isId⟩, failed⟩
    obtain ⟨id, rfl⟩ := isId_iff.mp isId
    obtain ⟨failure, read⟩ := (Json.exists_optional_iff exists_failure_iff).mpr failed
    exact ⟨⟨jsonrpc, some id, (v.get? "result").filter (!·.isNull), failure⟩, version, noMethod,
      ⟨id, rfl, member⟩, rfl, Failure.optional_eq_some_iff.mp read⟩

/-! ### Written messages -/

theorem filter_ne_null (member : Option Json) : member.filter (!·.isNull) ≠ some .null := by
  intro same
  have := (Option.filter_eq_some_iff.mp same).2
  cases this

theorem filter_of_ne_null {member : Option Json} (filled : member ≠ some .null) :
    member.filter (!·.isNull) = member := by
  cases member with
  | none => rfl
  | some w => cases w <;> first | rfl | exact absurd rfl filled

theorem Failure.isWritten_of_get? {f : Failure} (code : v.get? "code" = some (.int f.code.toInt))
    (message : v.get? "message" = some (.string f.message)) (data : v.get? "data" = f.data)
    (filled : f.data ≠ some .null) : f.IsWritten v := by
  obtain ⟨members, rfl⟩ := Json.exists_object code
  rw [Json.get?] at code message data
  refine ⟨f.data, Json.isRecord_object_iff.mpr ?_, (filter_of_ne_null filled).symm⟩
  simp [names, code, message, data]

theorem Failure.get?_toJson_data (f : Failure) : f.toJson.get? "data" = f.data := by
  simp [toJson, Json.get?, Json.lookup, Json.lookup_field?]

theorem Failure.isWritten_toJson {f : Failure} (filled : f.data ≠ some .null) :
    f.IsWritten f.toJson :=
  isWritten_of_get? rfl rfl f.get?_toJson_data filled

theorem Failure.isDistinct_toJson (f : Failure) : f.toJson.IsDistinct := by
  rw [toJson, Json.IsDistinct]
  cases f.data <;> simp [Json.field?]

theorem Failure.isWritten_canonical {f : Failure} (filled : f.data ≠ some .null)
    (normal : f.data.map Json.canonical = f.data) : f.IsWritten f.toJson.canonical := by
  have distinct := f.isDistinct_toJson
  refine isWritten_of_get? ?_ ?_ ?_ filled
  · exact Json.get?_canonical_of_get? distinct rfl (Json.canonical_int _)
  · exact Json.get?_canonical_of_get? distinct rfl (Json.canonical_string _)
  · rw [Json.get?_canonical distinct, get?_toJson_data, normal]

/-- Whether a response can be written without loss: it answers a request, and null stands for
nothing. -/
structure Response.IsPlain (r : Response) : Prop where
  answers : ∃ id, r.id = some id
  result : r.result ≠ some .null
  data : ∀ f, r.failure = some f → f.data ≠ some .null

theorem Response.IsWritten.isPlain {r : Response} (written : r.IsWritten v) : r.IsPlain := by
  obtain ⟨-, -, ⟨id, same, -⟩, result, failure⟩ := written
  refine ⟨⟨id, same⟩, result ▸ filter_ne_null _, ?_⟩
  intro f failed
  rw [failed] at failure
  generalize v.get? "error" = member at failure
  cases failure with
  | written here =>
      obtain ⟨data, -, rest⟩ := here
      exact rest ▸ filter_ne_null _

/-- A response is written by any value that has its members, however its failure is written. -/
theorem Response.isWritten_of_get? {r : Response} (write : Failure → Json) (plain : r.IsPlain)
    (version : v.get? "jsonrpc" = some (.string r.jsonrpc)) (noMethod : v.get? "method" = none)
    (id : ∀ id, r.id = some id → v.get? "id" = some id.toJson)
    (result : v.get? "result" = r.result) (failure : v.get? "error" = r.failure.map write)
    (writes : ∀ f, r.failure = some f → f.IsWritten (write f)) : r.IsWritten v := by
  obtain ⟨number, same⟩ := plain.answers
  refine ⟨version, ?_, ⟨number, same, id number same⟩, ?_, ?_⟩
  · rintro ⟨text, named⟩
    rw [noMethod] at named
    cases named
  · rw [result, filter_of_ne_null plain.result]
  · rw [failure]
    cases failed : r.failure with
    | none => exact .missing
    | some f => exact .written (writes f failed)

section Members

variable (r : Response)

theorem Response.get?_toJson_id (id : RequestId) (same : r.id = some id) :
    r.toJson.get? "id" = some id.toJson := by
  simp [toJson, Json.get?, Json.lookup, same]

theorem Response.get?_toJson_result : r.toJson.get? "result" = r.result := by
  simp [toJson, Json.get?, Json.lookup_append, Json.lookup, Json.lookup_field?]

theorem Response.get?_toJson_error : r.toJson.get? "error" = r.failure.map Failure.toJson := by
  simp [toJson, Json.get?, Json.lookup_append, Json.lookup, Json.lookup_field?]

theorem Response.get?_toJson_method : r.toJson.get? "method" = none := by
  simp [toJson, Json.get?, Json.lookup_append, Json.lookup, Json.lookup_field?]

end Members

theorem Response.isWritten_toJson {r : Response} (plain : r.IsPlain) : r.IsWritten r.toJson :=
  isWritten_of_get? Failure.toJson plain rfl r.get?_toJson_method r.get?_toJson_id
    r.get?_toJson_result r.get?_toJson_error
    fun f failed => Failure.isWritten_toJson (plain.data f failed)

theorem Response.isDistinct_toJson (r : Response) : r.toJson.IsDistinct := by
  rw [toJson, Json.IsDistinct]
  cases r.result <;> cases r.failure <;> simp [Json.field?]

theorem Response.isWritten_canonical {r : Response} (plain : r.IsPlain)
    (result : r.result.map Json.canonical = r.result)
    (data : ∀ f, r.failure = some f → f.data.map Json.canonical = f.data) :
    r.IsWritten r.toJson.canonical := by
  have distinct := r.isDistinct_toJson
  refine isWritten_of_get? (fun f => f.toJson.canonical) plain ?_ ?_ ?_ ?_ ?_ ?_
  · exact Json.get?_canonical_of_get? distinct rfl (Json.canonical_string _)
  · rw [Json.get?_canonical distinct, get?_toJson_method, Option.map_none]
  · exact fun id same =>
      Json.get?_canonical_of_get? distinct (r.get?_toJson_id id same) id.canonical_toJson
  · rw [Json.get?_canonical distinct, get?_toJson_result, result]
  · rw [Json.get?_canonical distinct, get?_toJson_error, Option.map_map]
    rfl
  · exact fun f failed => Failure.isWritten_canonical (plain.data f failed) (data f failed)

theorem Call.isWritten_toJson (c : Call) : c.IsWritten c.toJson :=
  ⟨rfl, rfl, rfl, rfl⟩

theorem Call.isWritten_canonical {c : Call} (normal : c.params.canonical = c.params) :
    c.IsWritten c.toJson.canonical := by
  have distinct : c.toJson.IsDistinct := by simp [toJson, Json.IsDistinct]
  refine ⟨?_, ?_, ?_, ?_⟩
  · exact Json.get?_canonical_of_get? distinct rfl (Json.canonical_string _)
  · exact Json.get?_canonical_of_get? distinct rfl c.id.canonical_toJson
  · exact Json.get?_canonical_of_get? distinct rfl (Json.canonical_string _)
  · rw [Json.get?_canonical_of_get? distinct rfl normal]
    rfl

theorem Notification.get?_toJson_id (n : Notification) : n.toJson.get? "id" = none :=
  rfl

theorem Notification.isWritten_toJson (n : Notification) : n.IsWritten n.toJson := by
  refine ⟨rfl, fun id here => ?_, rfl, rfl⟩
  rw [n.get?_toJson_id] at here
  cases here

theorem Notification.isWritten_canonical {n : Notification}
    (normal : n.params.canonical = n.params) : n.IsWritten n.toJson.canonical := by
  have distinct : n.toJson.IsDistinct := by simp [toJson, Json.IsDistinct]
  refine ⟨?_, ?_, ?_, ?_⟩
  · exact Json.get?_canonical_of_get? distinct rfl (Json.canonical_string _)
  · intro id here
    rw [Json.get?_canonical distinct, n.get?_toJson_id] at here
    cases here
  · exact Json.get?_canonical_of_get? distinct rfl (Json.canonical_string _)
  · rw [Json.get?_canonical_of_get? distinct rfl normal]
    rfl

/-! ### Reading again -/

theorem normal_orNull (normal : v.canonical = v) (name : String) :
    (Json.orNull (v.get? name)).canonical = Json.orNull (v.get? name) := by
  cases found : v.get? name with
  | none => simp [Json.orNull, Json.canonical]
  | some w => exact Json.normal_of_get? normal found

theorem normal_filter {member : Option Json} (normal : ∀ w, member = some w → w.canonical = w) :
    (member.filter (!·.isNull)).map Json.canonical = member.filter (!·.isNull) := by
  cases kept : member.filter (!·.isNull) with
  | none => rfl
  | some w => rw [Option.map_some, normal w (Option.filter_eq_some_iff.mp kept).1]

theorem Failure.IsWritten.normal {f : Failure} (written : f.IsWritten v)
    (normal : v.canonical = v) : f.data.map Json.canonical = f.data := by
  obtain ⟨data, form, rest⟩ := written
  rw [rest]
  refine normal_filter fun w here => form.normal normal ?_
  simp [here]

/-- The written form of a message that was read is a message with the same parts. -/
theorem Incoming.IsWritten.toJson {m : Incoming} (written : m.IsWritten v) :
    m.IsWritten m.toJson := by
  cases m with
  | response r => exact Response.isWritten_toJson (Response.IsWritten.isPlain written)
  | notification n => exact n.isWritten_toJson
  | call c => exact c.isWritten_toJson

/-- So it is if the members of the written form are sorted. -/
theorem Incoming.IsWritten.canonical {m : Incoming} (written : m.IsWritten v)
    (normal : v.canonical = v) : m.IsWritten m.toJson.canonical := by
  cases m with
  | response r =>
      have plain := Response.IsWritten.isPlain written
      obtain ⟨-, -, -, result, failure⟩ := written
      refine Response.isWritten_canonical plain ?_ ?_
      · rw [← result]
        exact normal_filter fun w => Json.normal_of_get? normal
      · intro f failed
        rw [failed] at failure
        cases member : v.get? "error" with
        | none =>
            rw [member] at failure
            cases failure
        | some w =>
            rw [member] at failure
            cases failure with
            | written here => exact here.normal (Json.normal_of_get? normal member)
  | notification n =>
      exact Notification.isWritten_canonical (written.params ▸ normal_orNull normal _)
  | call c => exact Call.isWritten_canonical (written.params ▸ normal_orNull normal _)

/-! ### By its shape -/

/-- Whether a value is taken for what its shape shows, and what it was read as is read again.
Nothing is made up (`read`). The written form of the message is read as the message (`again`). So is
the one with sorted members, if those of the value are sorted (`sorted`). -/
structure GoesByShape (v : Json) : Prop where
  call : (∃ c, Incoming.classify? v = some (.call c)) ↔ IsCall v
  notification : (∃ n, Incoming.classify? v = some (.notification n)) ↔ IsNotification v
  response : (∃ r, Incoming.classify? v = some (.response r)) ↔ IsResponse v
  nothing : Incoming.classify? v = none ↔ ¬ IsCall v ∧ ¬ IsNotification v ∧ ¬ IsResponse v
  read : ∀ m, Incoming.classify? v = some m → m.IsWritten v
  again : ∀ m, Incoming.classify? v = some m → Incoming.classify? m.toJson = some m
  sorted : v.canonical = v →
    ∀ m, Incoming.classify? v = some m → Incoming.classify? m.toJson.canonical = some m

theorem Incoming.classify?_eq_none_iff :
    classify? v = none ↔ ¬ IsCall v ∧ ¬ IsNotification v ∧ ¬ IsResponse v := by
  rw [Option.eq_none_iff_forall_ne_some, ← exists_call_iff, ← exists_notification_iff,
    ← exists_response_iff, not_exists, not_exists, not_exists]
  simp only [ne_eq, classify?_eq_some_iff]
  constructor
  · exact fun none => ⟨fun c => none (.call c), fun n => none (.notification n),
      fun r => none (.response r)⟩
  · rintro ⟨noCall, noNotification, noResponse⟩ (r | n | c)
    · exact noResponse r
    · exact noNotification n
    · exact noCall c

/-- Every value goes by its shape, whatever it is. -/
theorem goesByShape (v : Json) : GoesByShape v where
  call := by
    simp only [Incoming.classify?_eq_some_iff]
    exact exists_call_iff
  notification := by
    simp only [Incoming.classify?_eq_some_iff]
    exact exists_notification_iff
  response := by
    simp only [Incoming.classify?_eq_some_iff]
    exact exists_response_iff
  nothing := Incoming.classify?_eq_none_iff
  read := fun _ => Incoming.classify?_eq_some_iff.mp
  again := fun _ found =>
    Incoming.classify?_eq_some_iff.mpr (Incoming.classify?_eq_some_iff.mp found).toJson
  sorted := fun normal _ found =>
    Incoming.classify?_eq_some_iff.mpr ((Incoming.classify?_eq_some_iff.mp found).canonical normal)

/-- A method that is no text does not count, and a failure may be the list of its members. -/
example : Incoming.classify? (.object [("error", .array [.int 5, .string "busy", .null]),
      ("id", .string "a"), ("jsonrpc", .string "2.0"), ("method", .int 1)]) =
    some (.response ⟨"2.0", some (.text "a"), none, some ⟨5, "busy", none⟩⟩) :=
  rfl

end Rpc

end EditorBridge
