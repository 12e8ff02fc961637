import EditorBridge.Proofs.Bridge.Description
import EditorBridge.Proofs.Bridge.Origins
import EditorBridge.Proofs.Server.Forms

/-!
# Lists on their way to the editor

A server answers with a list of places or reports a list of findings. The editor gets them in the
order of the server, one for each, except for places whose URI names no file. Such a place is passed
over by itself; an item that cannot be read spoils the whole list (`comesThrough`).
-/

namespace EditorBridge

open Json

/-! ### Places and findings in the editor's counting -/

/-- Whether a span is a place of the server: the file that its URI names, and its range counted from
one. -/
structure Span.Shows (s : Span) (l : Server.Location) : Prop where
  file : Uri.toFile? l.uri = some s.file
  start : l.range.start.Precedes s.start
  finish : l.range.finish.Precedes s.finish

/-- Whether a finding is one of the server: its message, and its range counted from one. -/
structure Finding.Shows (f : Finding) (d : Server.Diagnostic) : Prop where
  text : f.text = d.message
  start : d.range.start.Precedes f.start
  finish : d.range.finish.Precedes f.finish

/-- Whether the URI of a place names a file. -/
def Server.Location.namesFile (l : Server.Location) : Bool :=
  (Uri.toFile? l.uri).isSome

theorem Server.Location.toSpan?_eq_none {l : Server.Location} (foreign : l.namesFile = false) :
    l.toSpan? = none := by
  rw [namesFile, Option.isSome_eq_false_iff, Option.isNone_iff_eq_none] at foreign
  rw [toSpan?, foreign, Option.map_none]

theorem Server.Location.exists_toSpan? {l : Server.Location} (names : l.namesFile = true) :
    ∃ s : Span, l.toSpan? = some s ∧ s.Shows l := by
  obtain ⟨file, named⟩ := Option.isSome_iff_exists.mp names
  refine ⟨_, by rw [toSpan?, named, Option.map_some], named, ?_, ?_⟩
  · exact l.range.start.precedes_toPoint
  · exact l.range.finish.precedes_toPoint

theorem Server.Diagnostic.shows_toFinding (d : Server.Diagnostic) : d.toFinding.Shows d :=
  ⟨rfl, d.range.start.precedes_toPoint, d.range.finish.precedes_toPoint⟩

/-- The spans of places are those of the places whose URI names a file. -/
theorem forall₂_toSpan? (locations : List Server.Location) :
    List.Forall₂ Span.Shows (locations.filterMap Server.Location.toSpan?)
      (locations.filter Server.Location.namesFile) := by
  induction locations with
  | nil => exact .nil
  | cons l locations ih =>
      cases names : l.namesFile with
      | false =>
          rw [List.filterMap_cons_none (Server.Location.toSpan?_eq_none names),
            List.filter_cons_of_neg (by simp [names])]
          exact ih
      | true =>
          obtain ⟨s, found, shows⟩ := Server.Location.exists_toSpan? names
          rw [List.filterMap_cons_some found, List.filter_cons_of_pos names]
          exact .cons shows ih

/-! ### Lists in messages -/

/-- Whether a response answers a command with a result. -/
structure Rpc.Response.Answers (r : Rpc.Response) (seq : Int64) (result : Json) : Prop where
  sameId : r.id = some (.number seq)
  numbered : seq ≠ handshakeId
  found : r.result = some result

/-- Whether the items of a list come through to the editor, as places that refer to a symbol and as
findings in a file. There is no reply exactly if none of the places is in a file (`unanswered`). A
reply has the places that are in files, in the order of the server (`answered`). There is no reply
if one of the items is no place (`spoilt`). An event has all the findings, in the order of the
server, wherever they were found (`reported`). There is no event if one of the items is no finding
(`unreported`). -/
structure ComesThrough (items : List Json) : Prop where
  unanswered : ∀ (r : Rpc.Response) seq locations, r.Answers seq (.array items) →
    List.Forall₂ (fun v l => Server.Location.IsWritten l v) items locations →
      (Reply.ofResponse? Kind.references.method r = none ↔
        ∀ l ∈ locations, Uri.toFile? l.uri = none)
  answered : ∀ (r : Rpc.Response) seq locations reply, r.Answers seq (.array items) →
    List.Forall₂ (fun v l => Server.Location.IsWritten l v) items locations →
      Reply.ofResponse? Kind.references.method r = some reply →
        ∃ spans, reply = ⟨seq, true, "references", none, some (.references spans)⟩ ∧
          List.Forall₂ Span.Shows spans (locations.filter Server.Location.namesFile)
  spoilt : ∀ (r : Rpc.Response) v, r.result = some (.array items) → v ∈ items →
    (∀ l : Server.Location, ¬ l.IsWritten v) →
      Reply.ofResponse? Kind.references.method r = none
  reported : ∀ (n : Rpc.Notification) diagnostics,
    n.params.get? "diagnostics" = some (.array items) →
      List.Forall₂ (fun v d => Server.Diagnostic.IsWritten d v) items diagnostics →
        ∃ event, Event.ofNotification? n = some event ∧
          List.Forall₂ Finding.Shows event.findings diagnostics
  unreported : ∀ (n : Rpc.Notification) v, n.params.get? "diagnostics" = some (.array items) →
    v ∈ items → (∀ d : Server.Diagnostic, ¬ d.IsWritten v) → Event.ofNotification? n = none

variable {items : List Json} {v : Json}

/-- A list of places is read as the places it stands for. -/
theorem ofResult?_of_written {locations : List Server.Location}
    (written : List.Forall₂ (fun v l => Server.Location.IsWritten l v) items locations) :
    Body.ofResult? .references (.array items) =
      if locations.filterMap Server.Location.toSpan? = [] then none
      else some (.references (locations.filterMap Server.Location.toSpan?)) := by
  have read : listOf? Server.Location.ofJson? (.array items) = some locations :=
    listOf?_of_forall₂ (fun _ _ => Server.Location.ofJson?_eq_some_iff.mpr) written
  simp only [Body.ofResult?, read, Option.bind_some, List.isEmpty_iff]

/-- A result without an answer becomes no reply, whoever asked. -/
theorem Reply.ofResponse?_eq_none {r : Rpc.Response} {kind : Kind} (found : r.result = some v)
    (unread : Body.ofResult? kind v = none) : ofResponse? kind.method r = none := by
  simp [ofResponse?_of_result found, unread]

/-- Lists of places and of findings come through. -/
theorem comesThrough (items : List Json) : ComesThrough items where
  unanswered := by
    intro r seq locations answers written
    rw [Reply.ofResponse?_eq answers.numbered answers.sameId answers.found,
      ofResult?_of_written written, Option.map_eq_none_iff]
    rw [ite_eq_left_iff]
    simp [List.filterMap_eq_nil_iff, Server.Location.toSpan?]
  answered := by
    intro r seq locations reply answers written found
    rw [Reply.ofResponse?_eq answers.numbered answers.sameId answers.found,
      ofResult?_of_written written] at found
    split at found
    · cases found
    · obtain rfl := Option.some.inj found
      exact ⟨_, rfl, forall₂_toSpan? locations⟩
  spoilt := by
    intro r v found inside malformed
    have unread := Server.Location.ofJson?_eq_none_iff.mpr malformed
    refine Reply.ofResponse?_eq_none found ?_
    rw [Body.ofResult?, listOf?_eq_none inside unread, Option.bind_none]
  reported := by
    intro n diagnostics found written
    have read : listOf? Server.Diagnostic.ofJson? (.array items) = some diagnostics :=
      listOf?_of_forall₂ (fun _ _ => Server.Diagnostic.ofJson?_eq_some_iff.mpr) written
    refine ⟨_, by rw [Event.ofNotification?, found, Option.bind_some, read, Option.map_some], ?_⟩
    rw [List.forall₂_map_left_iff, List.forall₂_same]
    exact fun d _ => d.shows_toFinding
  unreported := by
    intro n v found inside malformed
    have unread := Server.Diagnostic.ofJson?_eq_none_iff.mpr malformed
    rw [Event.ofNotification?, found, Option.bind_some, listOf?_eq_none inside unread,
      Option.map_none]

/-- Three places, of which the second one is in no file. -/
def threePlaces : List Server.Location :=
  [⟨"file:///a.go", ⟨⟨0, 5⟩, ⟨4294967294, 4294967295⟩⟩⟩, ⟨"https://go.dev/b.go", ⟨⟨0, 0⟩, ⟨0, 1⟩⟩⟩,
    ⟨"file:///a.go", ⟨⟨7, 5⟩, ⟨7, 12⟩⟩⟩]

/-- Of three places, the first and the last one come through. -/
theorem comesThrough_threePlaces :
    ∃ spans, Reply.ofResponse? "textDocument/references"
        ⟨Rpc.version, some (.number 12), some (.array (threePlaces.map Server.Location.toJson)),
          none⟩ = some ⟨12, true, "references", none, some (.references spans)⟩ ∧
      List.Forall₂ Span.Shows spans [threePlaces[0], threePlaces[2]] := by
  have answers : Rpc.Response.Answers ⟨Rpc.version, some (.number 12),
      some (.array (threePlaces.map Server.Location.toJson)), none⟩ 12
      (.array (threePlaces.map Server.Location.toJson)) := ⟨rfl, by decide, rfl⟩
  have written : List.Forall₂ (fun v l => Server.Location.IsWritten l v)
      (threePlaces.map Server.Location.toJson) threePlaces := by
    rw [List.forall₂_map_left_iff, List.forall₂_same]
    intro l inside
    have reference : Uri.Reference.isReference l.uri.toList = true := by
      revert l
      decide
    exact Server.Location.ofJson?_eq_some_iff.mp (Server.Location.ofJson?_toJson reference)
  have list := comesThrough (threePlaces.map Server.Location.toJson)
  have inFiles : threePlaces.filter Server.Location.namesFile =
      [threePlaces[0], threePlaces[2]] := by
    decide +kernel
  have somewhere : Reply.ofResponse? Kind.references.method _ ≠ none :=
    fun nothing => absurd ((list.unanswered _ 12 _ answers written).mp nothing) (by decide +kernel)
  obtain ⟨reply, replied⟩ := Option.ne_none_iff_exists'.mp somewhere
  obtain ⟨spans, rfl, shown⟩ := list.answered _ 12 _ reply answers written replied
  exact ⟨spans, replied, inFiles ▸ shown⟩

end EditorBridge
