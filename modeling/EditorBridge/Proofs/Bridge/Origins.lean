import EditorBridge.Proofs.Bridge.Echo
import EditorBridge.Proofs.Uri.Authority

/-!
# Where the files in answers come from

The files in the answers and events that the editor gets are all read out of URIs of the server. The
URIs of files are meant. The reader does not look at the scheme, though, only at the host, and so
the URIs of other schemes that lead to this machine are taken for files too. A server is understood
as it means it just if it says none of these (`filesAreMeant_iff`).
-/

namespace EditorBridge

/-- The spans in an answer. -/
def Body.spans : Body → List Span
  | quickInfo _ => []
  | definition spans | references spans => spans

/-- The places that the result of a query of some kind points at. -/
def Server.places : Kind → Json → List Server.Location
  | .definition, v => (Server.definitions? v).getD []
  | .references, v => (Json.listOf? Server.Location.ofJson? v).getD []
  | .quickInfo, _ | .openFile, _ | .changeFile, _ => []

/-- Whether all files that the editor is told of are meant to be files, as long as servers say
certain URIs only. Only the URIs of files are taken for files (`unread`). Every file in an answer is
that of a place in the result, under the URI of a file (`answered`). A reference to a place with
another URI is passed over (`skipped`). The file of an event is that of its URI, which is the URI of
a file (`reported`). -/
structure FilesAreMeant (said : String → Prop) : Prop where
  unread : ∀ uri, said uri → ¬ Uri.IsOfFile uri → Uri.toFile? uri = none
  answered : ∀ method r reply body, Reply.ofResponse? method r = some reply →
    reply.body = some body → ∀ span ∈ body.spans, ∃ kind result l,
      Kind.ofMethod? method = some kind ∧ r.result = some result ∧
        l ∈ Server.places kind result ∧ l.toSpan? = some span ∧ (said l.uri → Uri.IsOfFile l.uri)
  skipped : ∀ (r : Rpc.Response) front v back l, Server.Location.ofJson? v = some l →
    said l.uri → ¬ Uri.IsOfFile l.uri →
      Reply.ofResponse? Kind.references.method
          {r with result := some (.array (front ++ v :: back))} =
        Reply.ofResponse? Kind.references.method {r with result := some (.array (front ++ back))}
  reported : ∀ n event file, Event.ofNotification? n = some event → event.file = some file →
    ∃ uri, n.params.get? "uri" = some (.string uri) ∧ Uri.toFile? uri = some file ∧
      (said uri → Uri.IsOfFile uri)

/-- Every span of an answer is that of a place in the result. -/
theorem Body.exists_place {kind : Kind} {v : Json} {body : Body} {span : Span}
    (found : ofResult? kind v = some body) (inside : span ∈ body.spans) :
    ∃ l ∈ Server.places kind v, l.toSpan? = some span := by
  cases kind with
  | quickInfo =>
      obtain ⟨hover, -, rfl⟩ := Option.map_eq_some_iff.mp found
      cases inside
  | definition =>
      obtain ⟨locations, read, found⟩ := Option.bind_eq_some_iff.mp found
      obtain ⟨l, first, found⟩ := Option.bind_eq_some_iff.mp found
      obtain ⟨only, here, rfl⟩ := Option.map_eq_some_iff.mp found
      obtain rfl := List.mem_singleton.mp inside
      rw [Server.places, read]
      exact ⟨l, List.mem_of_mem_head? first, here⟩
  | references =>
      obtain ⟨locations, read, found⟩ := Option.bind_eq_some_iff.mp found
      dsimp only at found
      split at found
      · cases found
      · obtain rfl := Option.some.inj found
        obtain ⟨l, listed, here⟩ := List.mem_filterMap.mp inside
        rw [Server.places, read]
        exact ⟨l, listed, here⟩
  | openFile => cases found
  | changeFile => cases found

/-- A place of which no span is known makes no difference among references. -/
theorem Body.ofResult?_references_skip {front back : List Json} {v : Json} {l : Server.Location}
    (read : Server.Location.ofJson? v = some l) (nowhere : l.toSpan? = none) :
    ofResult? .references (.array (front ++ v :: back)) =
      ofResult? .references (.array (front ++ back)) := by
  simp only [ofResult?, Json.listOf?, List.mapM_append, List.mapM_cons, read]
  cases front.mapM Server.Location.ofJson? with
  | none => rfl
  | some before =>
      cases back.mapM Server.Location.ofJson? with
      | none => rfl
      | some behind =>
          have gone : (before ++ l :: behind).filterMap Server.Location.toSpan? =
              (before ++ behind).filterMap Server.Location.toSpan? := by
            rw [List.filterMap_append, List.filterMap_cons_none nowhere, List.filterMap_append]
          simp only [Option.bind_eq_bind, Option.bind_some, Option.pure_def, gone]

/-- Files are meant just if no server says the URI of another scheme that leads to this machine. -/
theorem filesAreMeant_iff {said : String → Prop} :
    FilesAreMeant said ↔ ∀ uri, said uri → ¬ Uri.LeadsHere uri := by
  constructor
  · intro meant uri used here
    have foreign := here.not_isOfFile
    obtain ⟨file, taken⟩ := (Uri.exists_toFile?_iff_leadsHere foreign).mpr here
    rw [meant.unread uri used foreign] at taken
    cases taken
  · intro noneHere
    have ofFile {uri file : String} (taken : Uri.toFile? uri = some file) (used : said uri) :
        Uri.IsOfFile uri := by
      by_contra foreign
      exact noneHere uri used ((Uri.exists_toFile?_iff_leadsHere foreign).mp ⟨file, taken⟩)
    have unread (uri : String) (used : said uri) (foreign : ¬ Uri.IsOfFile uri) :
        Uri.toFile? uri = none :=
      Option.eq_none_iff_forall_ne_some.mpr fun file taken => foreign (ofFile taken used)
    refine ⟨unread, ?_, ?_, ?_⟩
    · intro method r reply body became holds span inside
      obtain ⟨seq, kind, result, body, asked, given, found, rfl⟩ :=
        Reply.exists_of_ofResponse? became
      obtain rfl := Option.some.inj holds
      obtain ⟨l, listed, here⟩ := Body.exists_place found inside
      obtain ⟨file, taken, -⟩ := Option.map_eq_some_iff.mp here
      exact ⟨kind, result, l, asked, given, listed, here, ofFile taken⟩
    · intro r front v back l read used foreign
      have nowhere : l.toSpan? = none := by
        rw [Server.Location.toSpan?, unread l.uri used foreign, Option.map_none]
      rw [Reply.ofResponse?_of_result rfl, Reply.ofResponse?_of_result rfl,
        Body.ofResult?_references_skip read nowhere]
    · intro n event file became named
      obtain ⟨findings, -, rfl⟩ := Option.map_eq_some_iff.mp became
      obtain ⟨uri, given, taken⟩ := Option.bind_eq_some_iff.mp named
      obtain ⟨v, member, text⟩ := Option.bind_eq_some_iff.mp given
      have same : v = .string uri := by
        cases v <;> cases text
        rfl
      exact ⟨uri, same ▸ member, taken, ofFile taken⟩

/-- If servers may say anything, a file of a version control system is taken for a file. -/
theorem not_filesAreMeant_anyUri : ¬ FilesAreMeant fun _ => True := by
  intro meant
  have taken : Uri.toFile? "git:/repo/a.ts?ref" = some "/repo/a.ts" := by decide +kernel
  rw [meant.unread "git:/repo/a.ts?ref" trivial (by decide)] at taken
  cases taken

end EditorBridge
