import EditorBridge.Practice.Stream
import EditorBridge.Proofs.Bridge.Distinct
import EditorBridge.Proofs.Practice.Edits

/-!
# Documents that keep up

An editor that opens files and changes them, and a practice server that is told, hold the same texts
(`Server.keepsUp`). The editor knows a file by the normal form of its path, the server by the URI
that the messages give it; two paths are one file to both of them or to neither. One message takes
the server where one step takes the editor (`Copies.Step.mirrors`), so they keep up along every run
of the editor, over any number of files, whatever their paths are spelled like.
-/

namespace EditorBridge.Practice

open Json

/-! ### What a notice does to the documents -/

/-- The server that is left after what it has done, unless it exits. -/
def Server.stays? (done : Server × List Act) : Option Server :=
  match Running.exitIn done.2 with
  | some _ => none
  | none => some done.1

/-- The server after it has read the message that a command becomes. There is none if the command
has no message, or one that cannot be read, or one that makes the server exit. -/
def Server.hear? (s : Server) (c : Command) : Option Server :=
  c.toMessage?.bind fun m =>
    (Message.parse? m.toJson.chars).bind fun message => stays? (s.handle message)

/-- To publish is not to exit. -/
theorem Server.stays?_publish (s : Server) (uri : String) : stays? (s, s.publish uri) = some s := by
  have quiet : Running.exitIn (s.publish uri) = none := by
    rw [publish]
    split
    · rfl
    · split <;> rfl
  rw [stays?, quiet]

theorem Server.lookup_put (uri key : String) (document : Document)
    (documents : List (String × Document)) :
    lookup uri (put key document documents) =
      if key = uri then some document else lookup uri documents := by
  induction documents with
  | nil => rfl
  | cons first rest ih =>
      obtain ⟨other, old⟩ := first
      rw [put]
      split
      · next same =>
          rw [lookup, lookup, same]
          split
          · rfl
          · rfl
      · next different =>
          rw [lookup, ih, lookup]
          split
          · next here => rw [if_neg fun same => different (here.trans same.symm)]
          · rfl

/-- A server that reads the message of a notice finds its arguments. -/
theorem Server.hear?_notice (s : Server) {c : Command} {params : Json}
    (isNotice : c.kind.isQuery = false) (said : c.request.toParams? = some params) :
    s.hear? c = stays? (s.takeNotification c.kind.method params) := by
  have found : c.toMessage? = some (.notification (.of c.kind.method params)) := by
    rw [Command.toMessage?, said, Option.map_some, isNotice, if_neg Bool.false_ne_true]
  rw [hear?, found, Option.bind_some, Message.parse?_toJson found, Option.bind_some]
  rfl

/-- The server with a document set. -/
def Server.set (s : Server) (uri : String) (document : Document) : Server :=
  { s with documents := put uri document s.documents }

theorem Server.document?_set (s : Server) (uri key : String) (document : Document) :
    (s.set key document).document? uri = if key = uri then some document else s.document? uri :=
  lookup_put uri key document s.documents

theorem Server.uriOf_ofMembers {members : List (String × Json)} {uri : String}
    (named : Json.lookup "uri" members.reverse = some (.string uri)) :
    uriOf (.ofMembers members) = uri := by
  rw [uriOf, ofMembers, Json.get?, lookup_sortMembers, named]
  rfl

theorem Server.versionOf_ofMembers {members : List (String × Json)} {version : Int32}
    (counted : Json.lookup "version" members.reverse = some (.int version.toInt)) :
    versionOf (.ofMembers members) = version.toInt64 := by
  rw [versionOf, ofMembers, Json.get?, lookup_sortMembers, counted, Option.bind_some,
    ← Int32.toInt_toInt64, int64?_int, Option.getD_some]

/-- A file that is opened is a document of the server, with the text and the version given. -/
theorem Server.hear?_openFile (s : Server) (seq : Int64) {o : OpenedFile} {uri : String}
    (named : Uri.ofFileStrict? o.file = some uri) :
    s.hear? ⟨seq, .openFile o⟩ =
      some (s.set uri ⟨o.text.toList, (o.version.getD defaultOpenVersion).toInt64⟩) := by
  have said := OpenedFile.toParams?_eq_some_iff.mpr ⟨uri, named, rfl⟩
  rw [hear?_notice (c := ⟨seq, .openFile o⟩) s rfl said]
  refine show stays? (s.openFile _) = _ from ?_
  have text : ∀ members : List (String × Json),
      Json.lookup "text" members.reverse = some (.string o.text) →
        ((ofMembers members).get? "text").bind string? = some o.text := by
    intro members found
    rw [ofMembers, Json.get?, lookup_sortMembers, found]
    rfl
  rw [openFile, uriOf_ofMembers rfl, versionOf_ofMembers rfl, text _ rfl]
  exact stays?_publish _ _

/-- A file that is changed is a document of the server: the change is applied to the text that it
had, or to no text. -/
theorem Server.hear?_changeFile (s : Server) (seq : Int64) {e : Edit} {uri : String}
    {range : Option Server.Range} {text : List Char}
    (named : Uri.ofFileStrict? e.file = some uri) (ranged : e.range? = some range)
    (applied : applyChange arithmetic (((s.document? uri).map (·.text)).getD [])
      (changeJson range e.insertString) = .ok text) :
    s.hear? ⟨seq, .changeFile e⟩ =
      some (s.set uri ⟨text, (e.version.getD defaultChangeVersion).toInt64⟩) := by
  have said := Edit.toParams?_eq_some_iff.mpr ⟨uri, range, named, ranged, rfl⟩
  rw [hear?_notice (c := ⟨seq, .changeFile e⟩) s rfl said]
  have taken : ∀ (members : List (String × Json)) (file : Json) (changes : List Json),
      Json.lookup "textDocument" members.reverse = some file →
      Json.lookup "contentChanges" members.reverse = some (.array changes) →
        s.takeNotification Kind.changeFile.method (ofMembers members) =
          s.changeFile file changes := by
    intro members file changes described changed
    simp only [takeNotification, Kind.method, ofMembers, Json.get?, lookup_sortMembers, described,
      changed, Option.bind_some, array?, Option.getD_some]
  refine (congrArg stays? (taken _ _ _ (by rfl) (by rfl))).trans ?_
  have only : [changeJson range e.insertString].foldlM (applyChange arithmetic)
      (((s.document? uri).map (·.text)).getD []) = .ok text := by
    rw [List.foldlM_cons, applied]
    rfl
  rw [changeFile, uriOf_ofMembers rfl, versionOf_ofMembers rfl]
  simp only [changeJson] at only
  simp only [only]
  exact stays?_publish _ _

/-! ### What the editor keeps -/

/-- What an editor keeps of its files: the text and the version last sent, by the normal form of the
path. -/
def Copies : Type :=
  List Char → Option Document

namespace Copies

/-- An editor that has not opened anything yet. -/
def blank : Copies :=
  fun _ => none

/-- The text of a file; a file that was never sent has no text yet. -/
def text (copies : Copies) (file : String) : List Char :=
  ((copies (Text.normalPath file.toList)).map (·.text)).getD []

/-- The copies with the one of a file set. -/
def set (copies : Copies) (file : String) (document : Document) : Copies :=
  fun path => if Text.normalPath file.toList = path then some document else copies path

/-- What one command does to the copies of the editor that sends it: a file is opened with its text,
gets a new text, or has a part of its text replaced. Every file has a URI. The bytes before the end
of a part are counted in 64 bits. -/
inductive Step (copies : Copies) : Command → Copies → Prop
  | opened {seq : Int64} {o : OpenedFile} {uri : String}
      (named : Uri.ofFileStrict? o.file = some uri) :
      Step copies ⟨seq, .openFile o⟩
        (copies.set o.file ⟨o.text.toList, (o.version.getD defaultOpenVersion).toInt64⟩)
  | replaced {seq : Int64} {e : Edit} {uri : String} (named : Uri.ofFileStrict? e.file = some uri)
      (whole : e.line = none ∧ e.offset = none ∧ e.endLine = none ∧ e.endOffset = none) :
      Step copies ⟨seq, .changeFile e⟩
        (copies.set e.file
          ⟨e.insertString.toList, (e.version.getD defaultChangeVersion).toInt64⟩)
  | edited {seq : Int64} {e : Edit} {uri : String} {before part after : List Char}
      (named : Uri.ofFileStrict? e.file = some uri)
      (held : copies.text e.file = before ++ part ++ after) (replaces : e.Replaces before part)
      (counted : Text.Utf8.byteLength (before ++ part) < UInt64.size) :
      Step copies ⟨seq, .changeFile e⟩
        (copies.set e.file ⟨before ++ e.insertString.toList ++ after,
          (e.version.getD defaultChangeVersion).toInt64⟩)

/-- What commands do to the copies, one after the other. -/
inductive Run : Copies → List Command → Copies → Prop
  | nil {copies : Copies} : Run copies [] copies
  | cons {copies next last : Copies} {c : Command} {commands : List Command}
      (step : copies.Step c next) (later : Run next commands last) :
      Run copies (c :: commands) last

end Copies

/-! ### Keeping up -/

/-- Whether a server holds what an editor keeps: the same texts and versions of the files that the
URIs name, and no other documents. -/
structure Mirrors (s : Server) (copies : Copies) : Prop where
  held : ∀ file uri, Uri.ofFileStrict? file = some uri →
    s.document? uri = copies (Text.normalPath file.toList)
  named : ∀ uri document, s.document? uri = some document →
    ∃ file, Uri.ofFileStrict? file = some uri

theorem mirrors_start (options : Options) : Mirrors (Server.start options) .blank where
  held := fun _ _ _ => rfl
  named := by
    intro uri document found
    cases found

theorem Mirrors.set {s : Server} {copies : Copies} (mirrors : Mirrors s copies) {file uri : String}
    (named : Uri.ofFileStrict? file = some uri) (document : Document) :
    Mirrors (s.set uri document) (copies.set file document) where
  held := by
    intro other name alsoNamed
    rw [Server.document?_set, Copies.set, mirrors.held other name alsoNamed]
    -- One file for the editor is one URI for the server.
    simp only [Uri.eq_iff_sameFile named alsoNamed, SameFile]
  named := by
    intro name found here
    rw [Server.document?_set] at here
    split at here
    · next same => exact ⟨file, same ▸ named⟩
    · exact mirrors.named name found here

theorem Mirrors.text {s : Server} {copies : Copies} (mirrors : Mirrors s copies) {file uri : String}
    (named : Uri.ofFileStrict? file = some uri) :
    ((s.document? uri).map (·.text)).getD [] = copies.text file := by
  rw [mirrors.held file uri named, Copies.text]

/-- One step of the editor takes the server along. -/
theorem Copies.Step.mirrors {s : Server} {copies next : Copies} {c : Command}
    (mirrors : Mirrors s copies) (step : copies.Step c next) :
    ∃ t, s.hear? c = some t ∧ Mirrors t next := by
  cases step with
  | opened named => exact ⟨_, s.hear?_openFile _ named, mirrors.set named _⟩
  | @replaced seq e uri named whole =>
      obtain ⟨line, offset, endLine, endOffset⟩ := whole
      have ranged : e.range? = some none := by
        rw [Edit.range?, line, offset, endLine, endOffset]
      exact ⟨_, s.hear?_changeFile _ named ranged (applyChange_whole ..), mirrors.set named _⟩
  | edited named held replaces counted =>
      obtain ⟨range, ranged, applied⟩ := applyChange_edit Server.arithmetic _ replaces counted
      rw [← held, ← mirrors.text named] at applied
      exact ⟨_, s.hear?_changeFile _ named ranged applied, mirrors.set named _⟩

/-- Along a run of the editor every message is understood, and the server keeps up. -/
theorem Copies.Run.mirrors {s : Server} {copies last : Copies} {commands : List Command}
    (mirrors : Mirrors s copies) (run : copies.Run commands last) :
    ∃ t, commands.foldlM Server.hear? s = some t ∧ Mirrors t last := by
  induction run generalizing s with
  | nil => exact ⟨s, rfl, mirrors⟩
  | cons step later ih =>
      obtain ⟨t, heard, alsoMirrors⟩ := step.mirrors mirrors
      obtain ⟨u, others, atEnd⟩ := ih alsoMirrors
      exact ⟨u, by rw [List.foldlM_cons, heard]; exact others, atEnd⟩

/-- The message of a change of a range replaces the part of the document that the editor means, and
touches no other document. -/
theorem Server.hear?_edit {s : Server} (seq : Int64) {e : Edit} {uri : String} {d : Document}
    {before part after : List Char} (named : Uri.ofFileStrict? e.file = some uri)
    (opened : s.document? uri = some d) (held : d.text = before ++ part ++ after)
    (replaces : e.Replaces before part)
    (counted : Text.Utf8.byteLength (before ++ part) < UInt64.size) :
    ∃ t, s.hear? ⟨seq, .changeFile e⟩ = some t ∧
      t.document? uri = some ⟨before ++ e.insertString.toList ++ after,
        (e.version.getD defaultChangeVersion).toInt64⟩ ∧
      ∀ other, other ≠ uri → t.document? other = s.document? other := by
  obtain ⟨range, ranged, applied⟩ := applyChange_edit arithmetic after replaces counted
  have text : ((s.document? uri).map (·.text)).getD [] = before ++ part ++ after := by
    rw [opened, Option.map_some, Option.getD_some, held]
  rw [← text] at applied
  refine ⟨_, s.hear?_changeFile seq named ranged applied, ?_, fun other different => ?_⟩
  · rw [document?_set, if_pos rfl]
  · rw [document?_set, if_neg different.symm]

/-- The server understands every change of a range of a document that it holds, wherever in the text
the range is, and after any run of an editor it holds the same files with the same texts and the
versions that were sent last. -/
theorem Server.keepsUp :
    (∀ (s : Server) (seq : Int64) (e : Edit) (uri : String) (d : Document)
      (before part after : List Char), Uri.ofFileStrict? e.file = some uri →
        s.document? uri = some d → d.text = before ++ part ++ after → e.Replaces before part →
        Text.Utf8.byteLength (before ++ part) < UInt64.size →
          ∃ t, s.hear? ⟨seq, .changeFile e⟩ = some t ∧
            t.document? uri = some ⟨before ++ e.insertString.toList ++ after,
              (e.version.getD defaultChangeVersion).toInt64⟩ ∧
            ∀ other, other ≠ uri → t.document? other = s.document? other) ∧
      ∀ (options : Options) (commands : List Command) (copies : Copies),
        Copies.blank.Run commands copies →
          ∃ t, commands.foldlM Server.hear? (.start options) = some t ∧ Mirrors t copies :=
  ⟨fun _ seq _ _ _ _ _ _ named opened held replaces counted =>
      hear?_edit seq named opened held replaces counted,
    fun options _ _ run => run.mirrors (mirrors_start options)⟩

/-- A range from the middle of a line over a line feed to the end of the text, in a file whose path
is spelled in two ways; a file that changes before the server is told its text; and an empty range
behind a line feed. -/
theorem Server.keepsUp_twoFiles :
    (∃ t, [⟨1, .openFile ⟨"/a/x.ts", "α\nbβ\nc", none, some 3⟩⟩,
        ⟨2, .changeFile ⟨"/a//x.ts/.", "Z", some 2, some 2, some 3, some 2, none⟩⟩,
        ⟨3, .changeFile ⟨"/b", "new", some 1, some 1, some 1, some 1, some 7⟩⟩].foldlM hear?
          (start (.ofGiven [])) = some t ∧
      t.document? "file:///a/x.ts" = some ⟨"α\nbZ".toList, 1⟩ ∧
      t.document? "file:///b" = some ⟨"new".toList, 7⟩) ∧
    ∃ t, ((start (.ofGiven [])).set "file:///b" ⟨"β\n".toList, 4⟩).hear?
        ⟨1, .changeFile ⟨"/b", "x", some 2, some 1, some 2, some 1, none⟩⟩ = some t ∧
      t.document? "file:///b" = some ⟨"β\nx".toList, 1⟩ := by
  have first : Uri.ofFileStrict? "/a/x.ts" = some "file:///a/x.ts" := by decide +kernel
  have again : Uri.ofFileStrict? "/a//x.ts/." = some "file:///a/x.ts" := by decide +kernel
  have second : Uri.ofFileStrict? "/b" = some "file:///b" := by decide +kernel
  constructor
  · have enclosed : Edit.Replaces ⟨"/a//x.ts/.", "Z", some 2, some 2, some 3, some 2, none⟩
        "α\nb".toList "β\nc".toList :=
      ⟨⟨⟨2, 2⟩, rfl, rfl, by decide, by decide⟩, ⟨⟨3, 2⟩, rfl, rfl, by decide, by decide⟩⟩
    have atStart : Edit.Replaces ⟨"/b", "new", some 1, some 1, some 1, some 1, some 7⟩ [] [] :=
      ⟨⟨⟨1, 1⟩, rfl, rfl, by decide, by decide⟩, ⟨⟨1, 1⟩, rfl, rfl, by decide, by decide⟩⟩
    have run := Copies.Run.cons
      (@Copies.Step.opened .blank 1 ⟨"/a/x.ts", "α\nbβ\nc", none, some 3⟩ _ first)
      (.cons (@Copies.Step.edited _ 2 _ _ _ _ [] again (by decide) enclosed (by decide))
        (.cons (@Copies.Step.edited _ 3 _ _ _ _ [] second (by decide) atStart (by decide)) .nil))
    obtain ⟨t, heard, mirrors⟩ := keepsUp.2 (.ofGiven []) _ _ run
    refine ⟨t, heard, (mirrors.held _ _ first).trans ?_, (mirrors.held _ _ second).trans ?_⟩
    · rfl
    · rfl
  · obtain ⟨t, heard, found, -⟩ := keepsUp.1
      ((start (.ofGiven [])).set "file:///b" ⟨"β\n".toList, 4⟩) 1
      ⟨"/b", "x", some 2, some 1, some 2, some 1, none⟩ _ _ "β\n".toList [] [] second
      (document?_set _ _ _ _) rfl
      ⟨⟨⟨2, 1⟩, rfl, rfl, by decide, by decide⟩, ⟨⟨2, 1⟩, rfl, rfl, by decide, by decide⟩⟩
      (by decide)
    exact ⟨t, heard, found⟩

end EditorBridge.Practice
