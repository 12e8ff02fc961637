import EditorBridge.Proofs.Json.Forms
import EditorBridge.Server.Answer

/-!
# Forms of places and findings

How places and findings stand in the messages of servers, said without reading them. All of them are
records. A value that is written so is read as what it stands for, and no other value is read at all
(`ofJson?_eq_some_iff`, for each kind of record).
-/

namespace EditorBridge

namespace Server

open Json (IsRecord IsEntry IsListOf MayBe members?_eq_some_iff required_eq_some_iff
  exists_optional_iff exists_listOf?_iff)

variable {v : Json}

/-! ### Places -/

/-- Whether a value is a position. -/
def Position.IsWritten (p : Position) (v : Json) : Prop :=
  IsRecord ["line", "character"] [some (.int p.line.toNat), some (.int p.character.toNat)] v

/-- Whether a value is a range. -/
def Range.IsWritten (r : Range) (v : Json) : Prop :=
  ∃ start finish, IsRecord ["start", "end"] [some start, some finish] v ∧
    r.start.IsWritten start ∧ r.finish.IsWritten finish

/-- Whether a value is a location. -/
def Location.IsWritten (l : Location) (v : Json) : Prop :=
  ∃ range, IsRecord ["uri", "range"] [some (.string l.uri), some range] v ∧
    Uri.Reference.isReference l.uri.toList = true ∧ l.range.IsWritten range

/-- Whether a value is a link. -/
def LocationLink.IsWritten (l : LocationLink) (v : Json) : Prop :=
  ∃ origin range selection,
    IsRecord ["originSelectionRange", "targetUri", "targetRange", "targetSelectionRange"]
      [origin, some (.string l.targetUri), some range, some selection] v ∧
    IsEntry Range.IsWritten l.origin origin ∧
    Uri.Reference.isReference l.targetUri.toList = true ∧
    l.targetRange.IsWritten range ∧ l.targetSelection.IsWritten selection

theorem Position.ofJson?_eq_some_iff {p : Position} : ofJson? v = some p ↔ p.IsWritten v := by
  rw [IsWritten, ← members?_eq_some_iff]
  constructor
  · intro found
    rw [ofJson?] at found
    split at found
    · next line character form =>
        obtain ⟨l, first, found⟩ := Option.bind_eq_some_iff.mp found
        obtain ⟨c, second, rfl⟩ := Option.map_eq_some_iff.mp found
        obtain ⟨_, rfl, first⟩ := required_eq_some_iff.mp first
        obtain ⟨_, rfl, second⟩ := required_eq_some_iff.mp second
        rw [form, Json.uint32?_eq_some_iff.mp first, Json.uint32?_eq_some_iff.mp second]
    · cases found
  · intro form
    simp [ofJson?, form, Json.required, Json.uint32?_int]

theorem Range.ofJson?_eq_some_iff {r : Range} : ofJson? v = some r ↔ r.IsWritten v := by
  constructor
  · intro found
    rw [ofJson?] at found
    split at found
    · next start finish form =>
        obtain ⟨s, first, found⟩ := Option.bind_eq_some_iff.mp found
        obtain ⟨f, second, rfl⟩ := Option.map_eq_some_iff.mp found
        obtain ⟨start, rfl, first⟩ := required_eq_some_iff.mp first
        obtain ⟨finish, rfl, second⟩ := required_eq_some_iff.mp second
        exact ⟨start, finish, members?_eq_some_iff.mp form,
          Position.ofJson?_eq_some_iff.mp first, Position.ofJson?_eq_some_iff.mp second⟩
    · cases found
  · rintro ⟨start, finish, form, first, second⟩
    simp [ofJson?, members?_eq_some_iff.mpr form, Json.required,
      Position.ofJson?_eq_some_iff.mpr first, Position.ofJson?_eq_some_iff.mpr second]

theorem uri?_eq_some_iff {uri : String} :
    uri? v = some uri ↔ v = .string uri ∧ Uri.Reference.isReference uri.toList = true := by
  rw [uri?, Option.filter_eq_some_iff, Json.string?_eq_some_iff]

theorem Location.ofJson?_eq_some_iff {l : Location} : ofJson? v = some l ↔ l.IsWritten v := by
  constructor
  · intro found
    rw [ofJson?] at found
    split at found
    · next uri range form =>
        obtain ⟨u, first, found⟩ := Option.bind_eq_some_iff.mp found
        obtain ⟨r, second, rfl⟩ := Option.map_eq_some_iff.mp found
        obtain ⟨uri, rfl, first⟩ := required_eq_some_iff.mp first
        obtain ⟨range, rfl, second⟩ := required_eq_some_iff.mp second
        obtain ⟨rfl, reference⟩ := uri?_eq_some_iff.mp first
        exact ⟨range, members?_eq_some_iff.mp form, reference,
          Range.ofJson?_eq_some_iff.mp second⟩
    · cases found
  · rintro ⟨range, form, reference, second⟩
    simp [ofJson?, members?_eq_some_iff.mpr form, Json.required,
      uri?_eq_some_iff.mpr ⟨rfl, reference⟩, Range.ofJson?_eq_some_iff.mpr second]

theorem Location.ofJson?_eq_none_iff : ofJson? v = none ↔ ∀ l : Location, ¬ l.IsWritten v := by
  simp only [Option.eq_none_iff_forall_ne_some, ne_eq, ofJson?_eq_some_iff]

theorem Range.optional_eq_some_iff {member : Option Json} {r : Option Range} :
    Json.optional ofJson? member = some r ↔ IsEntry IsWritten r member := by
  refine Json.optional_eq_some_iff (fun _ _ => ofJson?_eq_some_iff) ?_
  intro r written
  cases ofJson?_eq_some_iff.mpr written

theorem LocationLink.ofJson?_eq_some_iff {l : LocationLink} :
    ofJson? v = some l ↔ l.IsWritten v := by
  constructor
  · intro found
    rw [ofJson?] at found
    split at found
    · next origin uri range selection form =>
        obtain ⟨o, first, found⟩ := Option.bind_eq_some_iff.mp found
        obtain ⟨u, second, found⟩ := Option.bind_eq_some_iff.mp found
        obtain ⟨r, third, found⟩ := Option.bind_eq_some_iff.mp found
        obtain ⟨s, fourth, rfl⟩ := Option.map_eq_some_iff.mp found
        obtain ⟨uri, rfl, second⟩ := required_eq_some_iff.mp second
        obtain ⟨range, rfl, third⟩ := required_eq_some_iff.mp third
        obtain ⟨selection, rfl, fourth⟩ := required_eq_some_iff.mp fourth
        obtain ⟨rfl, reference⟩ := uri?_eq_some_iff.mp second
        exact ⟨origin, range, selection, members?_eq_some_iff.mp form,
          Range.optional_eq_some_iff.mp first, reference,
          Range.ofJson?_eq_some_iff.mp third, Range.ofJson?_eq_some_iff.mp fourth⟩
    · cases found
  · rintro ⟨origin, range, selection, form, first, reference, third, fourth⟩
    simp [ofJson?, members?_eq_some_iff.mpr form, Json.required,
      Range.optional_eq_some_iff.mpr first, uri?_eq_some_iff.mpr ⟨rfl, reference⟩,
      Range.ofJson?_eq_some_iff.mpr third, Range.ofJson?_eq_some_iff.mpr fourth]

/-! ### Findings -/

namespace Diagnostic

/-- Whether a value is a number of 32 bits. -/
def IsNumber (v : Json) : Prop :=
  ∃ n : Int32, v = .int n.toInt

/-- Whether a value is a text. -/
def IsText (v : Json) : Prop :=
  ∃ text, v = .string text

/-- Whether a value is the description of a code. -/
def IsCodeDescription (v : Json) : Prop :=
  ∃ uri, IsRecord ["href"] [some (.string uri)] v ∧
    Uri.Reference.isReference uri.toList = true

/-- Whether a value is a remark about another place. -/
def IsRemark (v : Json) : Prop :=
  ∃ place message, IsRecord ["location", "message"] [some place, some (.string message)] v ∧
    ∃ l : Location, l.IsWritten place

/-- Whether a value is a finding. It may do without all that the editor is not told. -/
def IsWritten (d : Diagnostic) (v : Json) : Prop :=
  ∃ range severity code codeDescription source related tags data,
    IsRecord names [some range, severity, code, codeDescription, source,
      some (.string d.message), related, tags, data] v ∧
    d.range.IsWritten range ∧ MayBe IsNumber severity ∧
    MayBe (fun w => IsNumber w ∨ IsText w) code ∧ MayBe IsCodeDescription codeDescription ∧
    MayBe IsText source ∧ MayBe (IsListOf IsRemark) related ∧ MayBe (IsListOf IsNumber) tags

theorem exists_int32?_iff (v : Json) : (∃ n, v.int32? = some n) ↔ IsNumber v := by
  simp only [Json.int32?_eq_some_iff, IsNumber]

theorem exists_string?_iff (v : Json) : (∃ text, v.string? = some text) ↔ IsText v := by
  simp only [Json.string?_eq_some_iff, IsText]

theorem exists_code?_iff (v : Json) : (∃ a, code? v = some a) ↔ IsNumber v ∨ IsText v := by
  cases v with
  | string text => simp [code?, IsText]
  | _ => simp [code?, IsText, exists_int32?_iff]

theorem exists_codeDescription?_iff (v : Json) :
    (∃ a, codeDescription? v = some a) ↔ IsCodeDescription v := by
  constructor
  · rintro ⟨a, found⟩
    rw [codeDescription?] at found
    split at found
    · next href form =>
        obtain ⟨uri, first, -⟩ := Option.map_eq_some_iff.mp found
        obtain ⟨w, rfl, first⟩ := required_eq_some_iff.mp first
        obtain ⟨rfl, reference⟩ := uri?_eq_some_iff.mp first
        exact ⟨uri, members?_eq_some_iff.mp form, reference⟩
    · cases found
  · rintro ⟨uri, form, reference⟩
    simp [codeDescription?, members?_eq_some_iff.mpr form, Json.required,
      uri?_eq_some_iff.mpr ⟨rfl, reference⟩]

theorem exists_related?_iff (v : Json) : (∃ a, related? v = some a) ↔ IsRemark v := by
  constructor
  · rintro ⟨a, found⟩
    rw [related?] at found
    split at found
    · next place message form =>
        obtain ⟨l, first, found⟩ := Option.bind_eq_some_iff.mp found
        obtain ⟨text, second, -⟩ := Option.map_eq_some_iff.mp found
        obtain ⟨place, rfl, first⟩ := required_eq_some_iff.mp first
        obtain ⟨message, rfl, second⟩ := required_eq_some_iff.mp second
        obtain rfl := Json.string?_eq_some_iff.mp second
        exact ⟨place, text, members?_eq_some_iff.mp form, l, Location.ofJson?_eq_some_iff.mp first⟩
    · cases found
  · rintro ⟨place, message, form, l, first⟩
    simp [related?, members?_eq_some_iff.mpr form, Json.required, Json.string?,
      Location.ofJson?_eq_some_iff.mpr first]

theorem ofJson?_eq_some_iff {d : Diagnostic} : ofJson? v = some d ↔ d.IsWritten v := by
  constructor
  · intro found
    rw [ofJson?] at found
    split at found
    · next range severity code codeDescription source message related tags data form =>
        obtain ⟨r, first, found⟩ := Option.bind_eq_some_iff.mp found
        obtain ⟨text, second, found⟩ := Option.bind_eq_some_iff.mp found
        obtain ⟨a, severe, found⟩ := Option.bind_eq_some_iff.mp found
        obtain ⟨b, coded, found⟩ := Option.bind_eq_some_iff.mp found
        obtain ⟨c, described, found⟩ := Option.bind_eq_some_iff.mp found
        obtain ⟨s, sourced, found⟩ := Option.bind_eq_some_iff.mp found
        obtain ⟨e, remarked, found⟩ := Option.bind_eq_some_iff.mp found
        obtain ⟨t, tagged, rfl⟩ := Option.map_eq_some_iff.mp found
        obtain ⟨range, rfl, first⟩ := required_eq_some_iff.mp first
        obtain ⟨message, rfl, second⟩ := required_eq_some_iff.mp second
        obtain rfl := Json.string?_eq_some_iff.mp second
        exact ⟨range, severity, code, codeDescription, source, related, tags, data,
          members?_eq_some_iff.mp form, Range.ofJson?_eq_some_iff.mp first,
          (exists_optional_iff exists_int32?_iff).mp ⟨a, severe⟩,
          (exists_optional_iff exists_code?_iff).mp ⟨b, coded⟩,
          (exists_optional_iff exists_codeDescription?_iff).mp ⟨c, described⟩,
          (exists_optional_iff exists_string?_iff).mp ⟨s, sourced⟩,
          (exists_optional_iff fun _ => exists_listOf?_iff exists_related?_iff).mp ⟨e, remarked⟩,
          (exists_optional_iff fun _ => exists_listOf?_iff exists_int32?_iff).mp ⟨t, tagged⟩⟩
    · cases found
  · rintro ⟨range, severity, code, codeDescription, source, related, tags, data, form, first,
      severe, coded, described, sourced, remarked, tagged⟩
    obtain ⟨a, severe⟩ := (exists_optional_iff exists_int32?_iff).mpr severe
    obtain ⟨b, coded⟩ := (exists_optional_iff exists_code?_iff).mpr coded
    obtain ⟨c, described⟩ := (exists_optional_iff exists_codeDescription?_iff).mpr described
    obtain ⟨s, sourced⟩ := (exists_optional_iff exists_string?_iff).mpr sourced
    obtain ⟨e, remarked⟩ :=
      (exists_optional_iff fun _ => exists_listOf?_iff exists_related?_iff).mpr remarked
    obtain ⟨t, tagged⟩ :=
      (exists_optional_iff fun _ => exists_listOf?_iff exists_int32?_iff).mpr tagged
    simp [ofJson?, members?_eq_some_iff.mpr form, Json.required, Json.string?,
      Range.ofJson?_eq_some_iff.mpr first, severe, coded, described, sourced, remarked, tagged]

theorem ofJson?_eq_none_iff : ofJson? v = none ↔ ∀ d : Diagnostic, ¬ d.IsWritten v := by
  simp only [Option.eq_none_iff_forall_ne_some, ne_eq, ofJson?_eq_some_iff]

end Diagnostic

end Server

end EditorBridge
