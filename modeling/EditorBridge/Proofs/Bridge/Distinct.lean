import EditorBridge.Proofs.Bridge.Echo
import EditorBridge.Proofs.Bridge.Messages
import EditorBridge.Proofs.Rpc.Stream

/-!
# Commands that stay apart

Two commands whose frames have the same bytes say the same (`Command.bytes_eq_iff_agrees`): they are
of one kind and about one file, and everything in which they differ is a spelling of the path, a
default that one of them names, or the number of a notice. Every stage of the encoding is undone for
this: the first line of the frame is cut off, the text of the body is read, the arguments are looked
up by their names, the position is counted from one again, and the segments of the URI give the
names in the path.
-/

namespace EditorBridge

open Json

/-! ### Files -/

/-- Whether two paths are spellings of one file: empty parts, single points and a slash at the end
make no difference. -/
def SameFile (path other : String) : Prop :=
  Text.normalPath path.toList = Text.normalPath other.toList

/-- The names in the normal form of a path are those in the path. -/
theorem Text.pathNames_normalPath (path : List Char) :
    pathNames (normalPath path) = pathNames path := by
  rw [normalPath, pathNames_slash]
  refine pathNames_join fun name inside => ?_
  obtain ⟨-, notEmpty, notPoint⟩ := mem_pathNames.mp inside
  exact ⟨notEmpty, notPoint, slash_notMem_of_mem_pathNames inside⟩

/-- A segment of a path is a name too. -/
theorem Uri.proper_segment {path name : List Char} (inside : name ∈ Text.pathNames path) :
    segment name ≠ [] ∧ segment name ≠ ['.'] ∧ '/' ∉ segment name := by
  obtain ⟨-, notEmpty, notPoint⟩ := Text.mem_pathNames.mp inside
  refine ⟨segment_ne_nil notEmpty, fun point => notPoint ?_, fun slash => ?_⟩
  · exact segment_injective (point.trans (show ['.'] = segment ['.'] by decide))
  · exact (isQuiet_of_mem_segment slash).2.1 rfl

/-- Two files have one URI just if they are the same. -/
theorem Uri.eq_iff_sameFile {path other uri name : String} (named : ofFileStrict? path = some uri)
    (alsoNamed : ofFileStrict? other = some name) : uri = name ↔ SameFile path other := by
  obtain ⟨-, rfl⟩ := ofFile?_eq_some_iff.mp (Option.filter_eq_some_iff.mp named).1
  obtain ⟨-, rfl⟩ := ofFile?_eq_some_iff.mp (Option.filter_eq_some_iff.mp alsoNamed).1
  have names : ∀ path : List Char,
      Text.pathNames (Text.join '/' ((Text.pathNames path).map segment)) =
        (Text.pathNames path).map segment := by
    intro path
    refine Text.pathNames_join fun part inside => ?_
    obtain ⟨name, here, rfl⟩ := List.mem_map.mp inside
    exact proper_segment here
  constructor
  · intro same
    have joined := List.cons.inj (List.append_cancel_left (String.ofList_injective same))
    have segments := congrArg Text.pathNames joined.2
    rw [names, names] at segments
    have parts := List.map_injective_iff.mpr (fun _ _ => segment_injective) segments
    rw [SameFile, Text.normalPath, Text.normalPath, parts]
  · intro same
    have parts := congrArg Text.pathNames same
    rw [Text.pathNames_normalPath, Text.pathNames_normalPath] at parts
    rw [parts]

/-! ### Commands that say the same -/

/-- Whether two places are the same. -/
structure Spot.Agrees (s t : Spot) : Prop where
  file : SameFile s.file t.file
  line : s.line = t.line
  offset : s.offset = t.offset

/-- Whether two opened files are the same, with the defaults of what is not given. -/
structure OpenedFile.Agrees (o p : OpenedFile) : Prop where
  file : SameFile o.file p.file
  text : o.text = p.text
  languageId : o.languageId.getD defaultLanguage = p.languageId.getD defaultLanguage
  version : o.version.getD defaultOpenVersion = p.version.getD defaultOpenVersion

/-- Whether two changes are the same, with the default of a version that is not given. The same
coordinates are given, if any. -/
structure Edit.Agrees (e f : Edit) : Prop where
  file : SameFile e.file f.file
  insertString : e.insertString = f.insertString
  line : e.line = f.line
  offset : e.offset = f.offset
  endLine : e.endLine = f.endLine
  endOffset : e.endOffset = f.endOffset
  version : e.version.getD defaultChangeVersion = f.version.getD defaultChangeVersion

/-- Whether two requests are of one kind and the same. -/
inductive Request.Agrees : Request → Request → Prop
  | quickInfo {s t : Spot} (spot : s.Agrees t) : Agrees (.quickInfo s) (.quickInfo t)
  | definition {s t : Spot} (spot : s.Agrees t) : Agrees (.definition s) (.definition t)
  | references {s t : Spot} (spot : s.Agrees t) : Agrees (.references s) (.references t)
  | openFile {o p : OpenedFile} (opened : o.Agrees p) : Agrees (.openFile o) (.openFile p)
  | changeFile {e f : Edit} (edit : e.Agrees f) : Agrees (.changeFile e) (.changeFile f)

/-- Whether two commands are the same but for the number of a notice, which nobody is told. -/
structure Command.Agrees (c d : Command) : Prop where
  request : c.request.Agrees d.request
  seq : c.kind.isQuery = true → c.seq = d.seq

/-! ### Arguments -/

/-- Objects in normal form that are the same have the same members. -/
theorem Json.lookup_of_ofMembers_eq {first second : List (String × Json)}
    (same : ofMembers first = ofMembers second) (name : String) :
    lookup name first.reverse = lookup name second.reverse := by
  rw [← lookup_sortMembers, ← lookup_sortMembers, Json.object.inj same]

theorem OpenedFile.toParams?_eq_some_iff {o : OpenedFile} {params : Json} :
    o.toParams? = some params ↔ ∃ uri, Uri.ofFileStrict? o.file = some uri ∧
      params = .object [("textDocument", .ofMembers
        [("uri", .string uri), ("languageId", .string (o.languageId.getD defaultLanguage)),
          ("version", .int (o.version.getD defaultOpenVersion).toInt),
          ("text", .string o.text)])] := by
  rw [OpenedFile.toParams?, Option.map_eq_some_iff]
  simp only [eq_comm]

theorem Edit.toParams?_eq_some_iff {e : Edit} {params : Json} :
    e.toParams? = some params ↔ ∃ uri range, Uri.ofFileStrict? e.file = some uri ∧
      e.range? = some range ∧ params = .ofMembers
        [("textDocument", .ofMembers
          [("uri", .string uri),
            ("version", .int (e.version.getD defaultChangeVersion).toInt)]),
        ("contentChanges", .array [.ofMembers
          (Json.field? "range" Server.Range.toJson range ++
            [("text", .string e.insertString)])])] := by
  rw [Edit.toParams?]
  constructor
  · intro said
    obtain ⟨uri, named, said⟩ := Option.bind_eq_some_iff.mp said
    obtain ⟨range, ranged, rfl⟩ := Option.map_eq_some_iff.mp said
    exact ⟨uri, range, named, ranged, rfl⟩
  · rintro ⟨uri, range, named, ranged, rfl⟩
    rw [named, ranged]
    rfl

/-- The coordinates of a change are those of its range, counted from one. -/
theorem Edit.coordinates_of_range? {e : Edit} {range : Option Server.Range}
    (ranged : e.range? = some range) :
    e.line = range.map (·.start.toPoint.line) ∧ e.offset = range.map (·.start.toPoint.offset) ∧
      e.endLine = range.map (·.finish.toPoint.line) ∧
      e.endOffset = range.map (·.finish.toPoint.offset) := by
  obtain ⟨file, insertString, line, offset, endLine, endOffset, version⟩ := e
  -- Only all of the coordinates or none of them make a range.
  cases line <;> cases offset <;> cases endLine <;> cases endOffset <;> try cases ranged
  case none.none.none.none => exact ⟨rfl, rfl, rfl, rfl⟩
  case some.some.some.some line offset endLine endOffset =>
    obtain ⟨start, first, ranged⟩ := Option.bind_eq_some_iff.mp ranged
    obtain ⟨finish, last, rfl⟩ := Option.map_eq_some_iff.mp ranged
    simp only [Option.map_some, Server.Position.toPoint_of_ofPoint? first,
      Server.Position.toPoint_of_ofPoint? last, and_self]

/-- The arguments of two queries with the same additions are the same just if their places are. -/
theorem Spot.eq_iff_agrees {s t : Spot} {first second more : List (String × Json)}
    (said : s.toParams? = some first) (alsoSaid : t.toParams? = some second)
    (noDocument : lookup "textDocument" more.reverse = none)
    (noPosition : lookup "position" more.reverse = none) :
    ofMembers (first ++ more) = ofMembers (second ++ more) ↔ s.Agrees t := by
  obtain ⟨uri, position, named, counted, rfl⟩ := Spot.toParams?_eq_some_iff.mp said
  obtain ⟨name, place, alsoNamed, alsoCounted, rfl⟩ := Spot.toParams?_eq_some_iff.mp alsoSaid
  constructor
  · intro same
    have document := lookup_of_ofMembers_eq same "textDocument"
    have places := lookup_of_ofMembers_eq same "position"
    simp [lookup_append, lookup, noDocument] at document
    simp [lookup_append, lookup, noPosition] at places
    have positions := congrArg Server.Position.ofJson? places
    rw [Server.Position.ofJson?_toJson, Server.Position.ofJson?_toJson] at positions
    have points : s.point = t.point := by
      rw [← Server.Position.toPoint_of_ofPoint? counted, Option.some.inj positions,
        Server.Position.toPoint_of_ofPoint? alsoCounted]
    exact ⟨(Uri.eq_iff_sameFile named alsoNamed).mp document, (Point.mk.inj points).1,
      (Point.mk.inj points).2⟩
  · rintro ⟨file, line, offset⟩
    obtain rfl := (Uri.eq_iff_sameFile named alsoNamed).mpr file
    rw [Spot.point, line, offset] at counted
    obtain rfl := Option.some.inj (counted.symm.trans alsoCounted)
    rfl

theorem Spot.params_eq_iff_agrees {s t : Spot} {first second : Json}
    (said : s.toParams?.map ofMembers = some first)
    (alsoSaid : t.toParams?.map ofMembers = some second) : first = second ↔ s.Agrees t := by
  obtain ⟨members, found, rfl⟩ := Option.map_eq_some_iff.mp said
  obtain ⟨others, alsoFound, rfl⟩ := Option.map_eq_some_iff.mp alsoSaid
  have places := @Spot.eq_iff_agrees _ _ _ _ [] found alsoFound rfl rfl
  rwa [List.append_nil, List.append_nil] at places

/-- The arguments of two opened files are the same just if the files are. -/
theorem OpenedFile.eq_iff_agrees {o p : OpenedFile} {first second : Json}
    (said : o.toParams? = some first) (alsoSaid : p.toParams? = some second) :
    first = second ↔ o.Agrees p := by
  obtain ⟨uri, named, rfl⟩ := OpenedFile.toParams?_eq_some_iff.mp said
  obtain ⟨name, alsoNamed, rfl⟩ := OpenedFile.toParams?_eq_some_iff.mp alsoSaid
  constructor
  · intro same
    have document := (Prod.mk.inj (List.cons.inj (Json.object.inj same)).1).2
    have names := lookup_of_ofMembers_eq document "uri"
    have languages := lookup_of_ofMembers_eq document "languageId"
    have versions := lookup_of_ofMembers_eq document "version"
    have texts := lookup_of_ofMembers_eq document "text"
    simp [lookup] at names languages versions texts
    exact ⟨(Uri.eq_iff_sameFile named alsoNamed).mp names, texts, languages,
      Int32.toInt_inj.mp versions⟩
  · rintro ⟨file, text, languageId, version⟩
    rw [(Uri.eq_iff_sameFile named alsoNamed).mpr file, text, languageId, version]

theorem Server.Range.toJson_injective {r s : Range} (same : r.toJson = s.toJson) : r = s := by
  have read := congrArg Range.ofJson? same
  rw [Range.ofJson?_toJson, Range.ofJson?_toJson] at read
  exact Option.some.inj read

/-- The arguments of two changes are the same just if the changes are. -/
theorem Edit.eq_iff_agrees {e f : Edit} {first second : Json} (said : e.toParams? = some first)
    (alsoSaid : f.toParams? = some second) : first = second ↔ e.Agrees f := by
  obtain ⟨uri, range, named, ranged, rfl⟩ := Edit.toParams?_eq_some_iff.mp said
  obtain ⟨name, part, alsoNamed, alsoRanged, rfl⟩ := Edit.toParams?_eq_some_iff.mp alsoSaid
  constructor
  · intro same
    have document := lookup_of_ofMembers_eq same "textDocument"
    have changes := lookup_of_ofMembers_eq same "contentChanges"
    simp [lookup] at document changes
    have names := lookup_of_ofMembers_eq document "uri"
    have versions := lookup_of_ofMembers_eq document "version"
    have ranges := lookup_of_ofMembers_eq changes "range"
    have texts := lookup_of_ofMembers_eq changes "text"
    simp [lookup, reverse_field?, lookup_field?] at names versions ranges texts
    obtain rfl := Option.map_injective (fun _ _ => Server.Range.toJson_injective) ranges
    obtain ⟨line, offset, endLine, endOffset⟩ := Edit.coordinates_of_range? ranged
    obtain ⟨line', offset', endLine', endOffset'⟩ := Edit.coordinates_of_range? alsoRanged
    exact ⟨(Uri.eq_iff_sameFile named alsoNamed).mp names, texts, line.trans line'.symm,
      offset.trans offset'.symm, endLine.trans endLine'.symm, endOffset.trans endOffset'.symm,
      Int32.toInt_inj.mp versions⟩
  · rintro ⟨file, insertString, line, offset, endLine, endOffset, version⟩
    have ranges : e.range? = f.range? := by
      rw [Edit.range?, Edit.range?, line, offset, endLine, endOffset]
    obtain rfl := Option.some.inj (ranged.symm.trans (ranges.trans alsoRanged))
    rw [(Uri.eq_iff_sameFile named alsoNamed).mpr file, insertString, version]

/-- Requests that agree are of one kind. -/
theorem Request.Agrees.kind {r s : Request} (agrees : r.Agrees s) : r.kind = s.kind := by
  cases agrees <;> rfl

/-- The arguments of two requests of one kind are the same just if the requests are. -/
theorem Request.eq_iff_agrees {r s : Request} {first second : Json} (kinds : r.kind = s.kind)
    (said : r.toParams? = some first) (alsoSaid : s.toParams? = some second) :
    first = second ↔ r.Agrees s := by
  cases r with
  | quickInfo spot =>
      cases s with
      | quickInfo other =>
          exact (Spot.params_eq_iff_agrees said alsoSaid).trans
            ⟨.quickInfo, fun | .quickInfo agrees => agrees⟩
      | _ => cases kinds
  | definition spot =>
      cases s with
      | definition other =>
          exact (Spot.params_eq_iff_agrees said alsoSaid).trans
            ⟨.definition, fun | .definition agrees => agrees⟩
      | _ => cases kinds
  | references spot =>
      cases s with
      | references other =>
          obtain ⟨members, found, rfl⟩ := Option.map_eq_some_iff.mp said
          obtain ⟨others, alsoFound, rfl⟩ := Option.map_eq_some_iff.mp alsoSaid
          exact (Spot.eq_iff_agrees found alsoFound rfl rfl).trans
            ⟨.references, fun | .references agrees => agrees⟩
      | _ => cases kinds
  | openFile opened =>
      cases s with
      | openFile other =>
          exact (OpenedFile.eq_iff_agrees said alsoSaid).trans
            ⟨.openFile, fun | .openFile agrees => agrees⟩
      | _ => cases kinds
  | changeFile edit =>
      cases s with
      | changeFile other =>
          exact (Edit.eq_iff_agrees said alsoSaid).trans
            ⟨.changeFile, fun | .changeFile agrees => agrees⟩
      | _ => cases kinds

/-! ### Frames -/

/-- Frames that are the same have bodies that are the same. -/
theorem Rpc.Frame.chars_of_encodeBytes_eq {v w : Json} (same : encodeBytes v = encodeBytes w) :
    v.chars = w.chars := by
  have lines := congrArg (fun bytes => (takeLine bytes).2) same
  simp only [encodeBytes_eq, takeLine_line _ (lineFeed_notMem_lengthLine _),
    List.append_cancel_left_eq] at lines
  have texts := congrArg Text.Utf8.decode? lines
  rw [Text.Utf8.decode?_encode, Text.Utf8.decode?_encode] at texts
  exact Option.some.inj texts

/-- Kinds are told apart by their methods. -/
theorem Kind.method_injective {k l : Kind} (same : k.method = l.method) : k = l := by
  have kinds := congrArg Kind.ofMethod? same
  rw [Kind.ofMethod?_method, Kind.ofMethod?_method] at kinds
  exact Option.some.inj kinds

/-- What a message says of its command. -/
theorem Command.parts_of_toMessage? {c : Command} {m : Rpc.Outgoing}
    (said : c.toMessage? = some m) : m.method = c.kind.method ∧
      c.request.toParams? = some m.params ∧
      m.id? = if c.kind.isQuery then some (.number c.seq) else none := by
  obtain ⟨params, found, rfl⟩ := Command.exists_params said
  split
  · exact ⟨rfl, found, rfl⟩
  · exact ⟨rfl, found, rfl⟩

/-- The frames of two commands have the same bytes just if the commands agree. -/
theorem Command.bytes_eq_iff_agrees {c d : Command} {m n : Rpc.Outgoing}
    (said : c.toMessage? = some m) (alsoSaid : d.toMessage? = some n) :
    Rpc.Frame.encodeBytes m.toJson = Rpc.Frame.encodeBytes n.toJson ↔ c.Agrees d := by
  obtain ⟨method, params, id⟩ := Command.parts_of_toMessage? said
  obtain ⟨alsoMethod, alsoParams, alsoId⟩ := Command.parts_of_toMessage? alsoSaid
  constructor
  · intro same
    have read := Practice.Message.parse?_toJson said
    rw [Rpc.Frame.chars_of_encodeBytes_eq same, Practice.Message.parse?_toJson alsoSaid] at read
    obtain ⟨ids, methods, arguments, -⟩ := Practice.Message.mk.inj (Option.some.inj read)
    have kinds : c.kind = d.kind := by
      rw [method, alsoMethod] at methods
      exact (Kind.method_injective (Option.some.inj methods)).symm
    refine ⟨(Request.eq_iff_agrees kinds params alsoParams).mp arguments.symm, fun query => ?_⟩
    rw [id, alsoId, if_pos query, if_pos (kinds ▸ query)] at ids
    exact (Int64.toInt_inj.mp (Json.int.inj (Option.some.inj ids))).symm
  · rintro ⟨request, seq⟩
    have kinds : c.kind = d.kind := request.kind
    obtain ⟨first, found, rfl⟩ := Command.exists_params said
    obtain ⟨second, alsoFound, rfl⟩ := Command.exists_params alsoSaid
    obtain rfl := (Request.eq_iff_agrees kinds found alsoFound).mpr request
    rw [kinds]
    by_cases query : d.kind.isQuery = true
    · rw [seq (kinds ▸ query)]
    · rw [if_neg query, if_neg query]

/-- Two spellings of a directory, one of them with the default of the language, have one frame; the
same text under another version has another. -/
theorem Command.bytes_spellings :
    ∃ m n o, Command.toMessage? ⟨1, .openFile ⟨"/a//b/.", "x\"\n", none, some 3⟩⟩ = some m ∧
      Command.toMessage? ⟨2, .openFile ⟨"/./a/b/", "x\"\n", some "plaintext", some 3⟩⟩ = some n ∧
      Command.toMessage? ⟨1, .openFile ⟨"/a//b/.", "x\"\n", none, none⟩⟩ = some o ∧
      Rpc.Frame.encodeBytes m.toJson = Rpc.Frame.encodeBytes n.toJson ∧
      Rpc.Frame.encodeBytes m.toJson ≠ Rpc.Frame.encodeBytes o.toJson := by
  have named : Uri.ofFileStrict? "/a//b/." = some "file:///a/b" := by decide +kernel
  have alsoNamed : Uri.ofFileStrict? "/./a/b/" = some "file:///a/b" := by decide +kernel
  have speaks : ∀ (seq : Int64) (opened : OpenedFile) (uri : String),
      Uri.ofFileStrict? opened.file = some uri →
        ∃ m, Command.toMessage? ⟨seq, .openFile opened⟩ = some m := by
    intro seq opened uri named
    exact ⟨_, by rw [Command.toMessage?, Request.toParams?, OpenedFile.toParams?, named]; rfl⟩
  obtain ⟨m, said⟩ := speaks 1 ⟨"/a//b/.", "x\"\n", none, some 3⟩ _ named
  obtain ⟨n, alsoSaid⟩ := speaks 2 ⟨"/./a/b/", "x\"\n", some "plaintext", some 3⟩ _ alsoNamed
  obtain ⟨o, other⟩ := speaks 1 ⟨"/a//b/.", "x\"\n", none, none⟩ _ named
  refine ⟨m, n, o, said, alsoSaid, other, ?_, fun same => ?_⟩
  · refine (Command.bytes_eq_iff_agrees said alsoSaid).mpr ⟨.openFile ⟨?_, rfl, rfl, rfl⟩, ?_⟩
    · rw [SameFile]
      decide
    · intro query
      cases query
  · obtain ⟨request, -⟩ := (Command.bytes_eq_iff_agrees said other).mp same
    cases request with
    | openFile opened => exact absurd opened.version (by decide)

end EditorBridge
