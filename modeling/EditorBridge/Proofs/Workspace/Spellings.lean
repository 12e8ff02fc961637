import EditorBridge.Proofs.Workspace.Notices

/-!
# Spellings of one file

The bridge counts the versions of files by their paths, and a server knows documents by their URIs.
The versions of a document climb from one time it is opened to the next if its file is always
spelled in the same way (`tally_after`). Two spellings are counted apart, and then the server is
told the same version twice (`not_climbs_of_alike`). So the versions of all documents climb exactly
if no file is spelled in two ways (`climbs_iff`).
-/

namespace EditorBridge

namespace Notice

variable {notices : List Notice} {notice : Notice} {uri : String} {v : Int}

/-- Whether a change of a document to a version has been told since the document was opened last. -/
def Told (uri : String) (v : Int) (notices : List Notice) : Prop :=
  ∃ before since, notices = before ++ .changed uri v :: since ∧ ∀ x, .opened uri x ∉ since

/-- Whether every change of a document is told with a greater version than those told since the
document was opened last. -/
def Rises (notices : List Notice) : Prop :=
  ∀ before uri w after, notices = before ++ .changed uri w :: after →
    ∀ v, Told uri v before → v < w

/-- Whether the versions of the changes of a document rise from one time it is opened to the
next. -/
def Climbs (notices : List Notice) : Prop :=
  ∀ before uri w after, notices = before ++ .changed uri w :: after →
    (∃ x, .opened uri x ∈ before) → (∃ x, .opened uri x ∈ after) →
      ∀ v, Told uri v before → v < w

theorem Rises.climbs (rises : Rises notices) : Climbs notices := by
  intro before uri w after form _ _
  exact rises before uri w after form

/-- What has been told after one more notice. -/
theorem told_concat (told : Told uri v (notices ++ [notice])) :
    notice = .changed uri v ∨ Told uri v notices ∧ ∀ x, notice ≠ .opened uri x := by
  obtain ⟨before, since, form, unopened⟩ := told
  rcases List.eq_nil_or_concat since with rfl | ⟨since, last, rfl⟩
  · obtain ⟨-, same⟩ := List.append_inj' form rfl
    exact .inl (List.cons.inj same).1
  · have whole : notices ++ [notice] = (before ++ .changed uri v :: since) ++ [last] := by
      rw [form, List.concat_eq_append, List.append_assoc, List.cons_append]
    obtain ⟨rfl, same⟩ := List.append_inj' whole rfl
    obtain rfl := (List.cons.inj same).1
    refine .inr ⟨⟨before, since, rfl, ?_⟩, ?_⟩
    · intro x inside
      apply unopened x
      simp [inside]
    · rintro x rfl
      apply unopened x
      simp

theorem rises_concat (rises : Rises notices)
    (greater : ∀ uri w, notice = .changed uri w → ∀ v, Told uri v notices → v < w) :
    Rises (notices ++ [notice]) := by
  intro before uri w after form
  rcases List.eq_nil_or_concat after with rfl | ⟨after, last, rfl⟩
  · obtain ⟨rfl, same⟩ := List.append_inj' form rfl
    exact greater uri w (List.cons.inj same).1
  · have whole : notices ++ [notice] = (before ++ .changed uri w :: after) ++ [last] := by
      rw [form, List.concat_eq_append, List.append_assoc, List.cons_append]
    obtain ⟨rfl, -⟩ := List.append_inj' whole rfl
    exact rises before uri w after rfl

end Notice

open Notice (Told Rises Climbs)

/-- Whether a command is a notice that the editor has not counted. -/
def Command.IsUncounted (c : Command) : Prop :=
  c.kind.isQuery = false ∧ c.request.version? = none

/-- Whether no two of the paths are the file of one document. -/
def SpelledOnce (paths : String → Prop) : Prop :=
  ∀ file other uri, paths file → paths other → Uri.ofFileStrict? file = some uri →
    Uri.ofFileStrict? other = some uri → file = other

namespace Workspace

variable {w : Workspace} {paths : String → Prop} {notices : List Notice} {k : Nat}

/-- How the versions of a workspace stand to the notices that came of some commands. -/
structure Tally (paths : String → Prop) (w : Workspace) (notices : List Notice) (k : Nat) :
    Prop where
  rises : Rises notices
  reached : ∀ file uri, paths file → Uri.ofFileStrict? file = some uri → ∀ v,
    Told uri v notices → ∃ t, w.version? file = some t ∧ v ≤ t.toInt
  low : ∀ file t, w.version? file = some t → 0 ≤ t.toInt ∧ t.toInt ≤ k

/-- One more version of a file and what the server is told of it, if it is told. -/
theorem tally_set (tally : Tally paths w notices k) (once : SpelledOnce paths) {file : String}
    (inside : paths file) {v : Int32} (low : 0 ≤ v.toInt ∧ v.toInt ≤ k + 1)
    {notice : Option Notice}
    (about : ∀ m, notice = some m → Uri.ofFileStrict? file = some m.uri)
    (rises : Rises (notices ++ notice.toList))
    (reached : ∀ uri, Uri.ofFileStrict? file = some uri → ∀ x,
      Told uri x (notices ++ notice.toList) → x ≤ v.toInt) :
    Tally paths { w with versions := w.versions.set file v } (notices ++ notice.toList)
      (k + 1) := by
  refine ⟨rises, ?_, ?_⟩
  · intro other uri known named x told
    rw [version?_set]
    by_cases same : file = other
    · subst same
      exact ⟨v, if_pos rfl, reached uri named x told⟩
    · rw [if_neg same]
      apply tally.reached other uri known named x
      cases notice with
      | none => simpa using told
      | some m =>
          rcases Notice.told_concat told with rfl | ⟨before, -⟩
          · exact absurd (once file other uri inside known (about _ rfl) named) same
          · exact before
  · intro other t found
    rw [version?_set] at found
    split at found
    · obtain rfl := Option.some.inj found
      exact low
    · obtain ⟨least, most⟩ := tally.low other t found
      exact ⟨least, by omega⟩

/-- One more version of a file that the server is not told of. -/
theorem tally_untold (tally : Tally paths w notices k) (once : SpelledOnce paths) {file : String}
    (inside : paths file) {v : Int32} (low : 0 ≤ v.toInt ∧ v.toInt ≤ k + 1)
    (reached : ∀ uri, Uri.ofFileStrict? file = some uri → ∀ x,
      Told uri x notices → x ≤ v.toInt) :
    Tally paths { w with versions := w.versions.set file v }
      (notices ++ (none : Option Notice).toList) (k + 1) := by
  refine tally_set tally once inside low ?_ ?_ ?_
  · intro m none
    cases none
  · simpa using tally.rises
  · simpa using reached

theorem tally_openFile (tally : Tally paths w notices k) (once : SpelledOnce paths) {seq : Int64}
    {opened : OpenedFile} (inside : paths opened.file) (uncounted : opened.version = none) :
    Tally paths (w.prepare ⟨seq, .openFile opened⟩).1
      (notices ++ ((w.prepare ⟨seq, .openFile opened⟩).2.bind Command.notice?).toList)
      (k + 1) := by
  have zero : (0 : Int32).toInt = 0 := by decide
  have notice : (w.prepare ⟨seq, .openFile opened⟩).2.bind Command.notice? =
      (Uri.ofFileStrict? opened.file).map fun uri => .opened uri 0 := by
    rw [prepare_openFile, Option.bind_some, Command.notice?_openFile, uncounted]
    rfl
  have first : (w.prepare ⟨seq, .openFile opened⟩).1 =
      { w with versions := w.versions.set opened.file 0 } := by
    rw [prepare_openFile, uncounted]
    rfl
  rw [first, notice]
  cases named : Uri.ofFileStrict? opened.file with
  | none =>
      refine tally_untold tally once inside (by rw [zero]; omega) ?_
      intro uri other
      rw [named] at other
      cases other
  | some uri =>
      rw [Option.map_some]
      refine tally_set tally once inside (by rw [zero]; omega) ?_ ?_ ?_
      · intro m same
        obtain rfl := Option.some.inj same
        exact named
      · refine Notice.rises_concat tally.rises ?_
        intro other x change
        cases change
      · intro other same x told
        obtain rfl := Option.some.inj (named.symm.trans same)
        rcases Notice.told_concat told with change | ⟨-, unopened⟩
        · cases change
        · exact absurd rfl (unopened 0)

/-- A file has a next version as long as there have been fewer notices than versions, and it counts
on from the version before, or from zero. -/
theorem exists_next? (tally : Tally paths w notices k) (few : k < Int32.maxValue.toInt)
    (file : String) : ∃ v, w.versions.next? file = some v ∧ 0 ≤ v.toInt ∧ v.toInt ≤ k + 1 ∧
      ∀ t, w.version? file = some t → t.toInt < v.toInt := by
  cases next : w.versions.next? file with
  | none =>
      obtain ⟨-, most⟩ := tally.low file _ ((next?_eq_none_iff w file).mp next)
      omega
  | some v =>
      have counted := toInt_next? next
      refine ⟨v, rfl, ?_⟩
      cases before : w.version? file with
      | none =>
          rw [before] at counted
          change v.toInt = 1 at counted
          exact ⟨by omega, by omega, nofun⟩
      | some t =>
          rw [before] at counted
          change v.toInt = t.toInt + 1 at counted
          obtain ⟨least, most⟩ := tally.low file t before
          refine ⟨by omega, by omega, ?_⟩
          rintro u ⟨⟩
          omega

theorem tally_changeFile (tally : Tally paths w notices k) (once : SpelledOnce paths)
    (few : k < Int32.maxValue.toInt) {seq : Int64} {edit : Edit} (inside : paths edit.file)
    (uncounted : edit.version = none) :
    Tally paths (w.prepare ⟨seq, .changeFile edit⟩).1
      (notices ++ ((w.prepare ⟨seq, .changeFile edit⟩).2.bind Command.notice?).toList)
      (k + 1) := by
  obtain ⟨v, counted, least, most, greater⟩ := exists_next? tally few edit.file
  have notice : (⟨seq, .changeFile { edit with version := some v }⟩ : Command).notice? =
      (Uri.ofFileStrict? edit.file).bind fun uri =>
        edit.range?.map fun _ => .changed uri v.toInt := Command.notice?_changeFile ..
  have below (uri : String) (named : Uri.ofFileStrict? edit.file = some uri) (x : Int)
      (told : Told uri x notices) : x < v.toInt := by
    obtain ⟨t, tracked, le⟩ := tally.reached edit.file uri inside named x told
    exact Int.lt_of_le_of_lt le (greater t tracked)
  rw [prepare_change seq (by rw [uncounted, Option.none_or, counted]), Option.bind_some, notice]
  cases named : Uri.ofFileStrict? edit.file with
  | none =>
      refine tally_untold tally once inside ⟨least, most⟩ ?_
      intro uri other
      rw [named] at other
      cases other
  | some uri =>
      cases edit.range? with
      | none =>
          refine tally_untold tally once inside ⟨least, most⟩ ?_
          intro other same x told
          exact Int.le_of_lt (below other same x told)
      | some range =>
          rw [Option.bind_some, Option.map_some]
          refine tally_set tally once inside ⟨least, most⟩ ?_ ?_ ?_
          · intro m same
            obtain rfl := Option.some.inj same
            exact named
          · refine Notice.rises_concat tally.rises ?_
            rintro other x same y told
            obtain ⟨rfl, rfl⟩ := Notice.changed.inj same
            exact below uri named y told
          · intro other same x told
            rcases Notice.told_concat told with change | ⟨before, -⟩
            · obtain ⟨-, rfl⟩ := Notice.changed.inj change
              exact Int.le_refl _
            · exact Int.le_of_lt (below other same x before)

theorem tally_prepare (tally : Tally paths w notices k) (once : SpelledOnce paths)
    (few : k < Int32.maxValue.toInt) {c : Command} (inside : paths c.request.file)
    (uncounted : c.IsUncounted) :
    Tally paths (w.prepare c).1
      (notices ++ ((w.prepare c).2.bind Command.notice?).toList) (k + 1) := by
  obtain ⟨seq, request⟩ := c
  obtain ⟨isNotice, unversioned⟩ := uncounted
  cases request with
  | quickInfo spot => cases isNotice
  | definition spot => cases isNotice
  | references spot => cases isNotice
  | openFile opened => exact tally_openFile tally once inside unversioned
  | changeFile edit => exact tally_changeFile tally once few inside unversioned

/-- If files are spelled in one way, the versions of documents rise, as long as there are fewer
notices than versions. -/
theorem tally_after (fresh : w.versions = []) (once : SpelledOnce paths) (commands : List Command)
    (few : commands.length < 2 ^ 31)
    (each : ∀ c ∈ commands, c.IsUncounted ∧ paths c.request.file) :
    Tally paths (w.after commands) ((w.completed commands).filterMap Command.notice?)
      commands.length := by
  -- By induction on the commands from the last one. A version that the server has been told is at
  -- most the one that is kept for the path, because only this path is the file of its document.
  induction commands using List.reverseRecOn with
  | nil =>
      refine ⟨?_, ?_, ?_⟩
      · intro before uri x after form
        simp [completed, prepareAll] at form
      · rintro file uri known named x ⟨before, since, form, -⟩
        simp [completed, prepareAll] at form
      · intro file t found
        change w.version? file = some t at found
        rw [version?, fresh] at found
        cases found
  | append_singleton commands c ih =>
      rw [List.length_append, List.length_singleton] at few ⊢
      have before := ih (by omega) fun d inside => each d (List.mem_append_left _ inside)
      obtain ⟨uncounted, inside⟩ := each c (List.mem_append_right _ List.mem_cons_self)
      have greatest : Int32.maxValue.toInt = 2147483647 := by decide
      have more := tally_prepare before once (by omega) inside uncounted
      rw [after_concat, completed_concat, List.filterMap_append, filterMap_toList]
      exact more

end Workspace

namespace Hub

variable {η : Type} {h : Hub η} {n : Nat} {w : Workspace} {sent : List Json}

/-- A file is opened, changed, changed under another path, and opened again. -/
def respelling (file other : String) : List Sending :=
  let opening (seq : Int64) : Sending := ⟨⟨seq, .openFile ⟨file, "", none, none⟩⟩, false⟩
  let change (seq : Int64) (path : String) : Sending :=
    ⟨⟨seq, .changeFile ⟨path, "", none, none, none, none, none⟩⟩, false⟩
  [opening 1, change 2 file, change 3 other, opening 4]

theorem isUncounted_respelling {file other : String} {s : Sending}
    (inside : s ∈ respelling file other) :
    s.command.IsUncounted ∧ (s.command.request.file = file ∨ s.command.request.file = other) := by
  rw [respelling] at inside
  simp only [List.mem_cons, List.not_mem_nil, or_false] at inside
  rcases inside with rfl | rfl | rfl | rfl
  · exact ⟨⟨rfl, rfl⟩, .inl rfl⟩
  · exact ⟨⟨rfl, rfl⟩, .inl rfl⟩
  · exact ⟨⟨rfl, rfl⟩, .inr rfl⟩
  · exact ⟨⟨rfl, rfl⟩, .inl rfl⟩

theorem notices_respelling (awaits : h.Awaits n w sent) {file other uri : String}
    (apart : file ≠ other) (named : Uri.ofFileStrict? file = some uri)
    (alike : Uri.ofFileStrict? other = some uri) :
    (h.sendAll n (respelling file other)).notices n =
      [.opened uri 0, .changed uri 1, .changed uri 1, .opened uri 0] := by
  have room : (0 : Int32) ≠ Int32.maxValue := by decide
  rw [notices_sendAll awaits fun s inside => (isUncounted_respelling inside).1.1]
  simp [room, respelling, Workspace.completed, Workspace.prepareAll, Workspace.prepare,
    Versions.prepare, Versions.next?, Versions.set, Versions.get?, awaits.fresh,
    Command.notice?_openFile, Command.notice?_changeFile, named, alike, apart, Edit.range?,
    defaultOpenVersion]

/-- Two spellings of one file are counted apart. -/
theorem not_climbs_of_alike (awaits : h.Awaits n w sent) {file other uri : String}
    (apart : file ≠ other) (named : Uri.ofFileStrict? file = some uri)
    (alike : Uri.ofFileStrict? other = some uri) :
    ¬ Climbs ((h.sendAll n (respelling file other)).notices n) := by
  rw [notices_respelling awaits apart named alike]
  intro climbs
  have less := climbs [.opened uri 0, .changed uri 1] uri 1 [.opened uri 0] rfl ⟨0, by simp⟩
    ⟨0, by simp⟩ 1 ⟨[.opened uri 0], [], rfl, nofun⟩
  exact Int.lt_irrefl 1 less

/-- Whatever notices about files with some paths go through a workspace, the versions of documents
climb, exactly if no two of the paths are the file of one document. -/
theorem climbs_iff (awaits : h.Awaits n w sent) (paths : String → Prop) :
    (∀ sendings : List Sending, sendings.length < 2 ^ 31 →
      (∀ s ∈ sendings, s.command.IsUncounted ∧ paths s.command.request.file) →
        Climbs ((h.sendAll n sendings).notices n)) ↔ SpelledOnce paths := by
  constructor
  · intro climbs file other uri known alsoKnown named alike
    by_contra apart
    apply not_climbs_of_alike awaits apart named alike
    apply climbs
    · simp [respelling]
    · intro s inside
      obtain ⟨uncounted, rfl | rfl⟩ := isUncounted_respelling inside
      · exact ⟨uncounted, known⟩
      · exact ⟨uncounted, alsoKnown⟩
  · intro once sendings few each
    rw [notices_sendAll awaits fun s inside => (each s inside).1.1]
    apply Notice.Rises.climbs
    refine (Workspace.tally_after awaits.fresh once _ (by simpa using few) ?_).rises
    intro c inside
    obtain ⟨s, sent, rfl⟩ := List.mem_map.mp inside
    exact each s sent

/-- The versions of a document climb if its file is always spelled in one way. -/
theorem climbs_fresh :
    fresh.Awaits 0 (.start ⟨"/", "server"⟩ ⟨"server", [], [], none⟩ 0 1 0)
        [(Channel.greeting 1 "/").toJson] ∧
      SpelledOnce (· = "/a") ∧
      ∀ sendings : List Sending, sendings.length < 2 ^ 31 →
        (∀ s ∈ sendings, s.command.IsUncounted ∧ s.command.request.file = "/a") →
          Climbs ((fresh.sendAll 0 sendings).notices 0) := by
  have once : SpelledOnce (· = "/a") := fun _ _ _ one two _ _ => one.trans two.symm
  exact ⟨awaits_fresh, once, (climbs_iff awaits_fresh (· = "/a")).mpr once⟩

/-- They do not climb if a slash is written twice. -/
theorem not_climbs_twoSlashes :
    ¬ ∀ sendings : List Sending, (∀ s ∈ sendings, s.command.IsUncounted) →
      Climbs ((fresh.sendAll 0 sendings).notices 0) := by
  intro climbs
  have alike : ∃ uri, Uri.ofFileStrict? "/a" = some uri ∧ Uri.ofFileStrict? "//a" = some uri :=
    ⟨"file:///a", by decide, by decide⟩
  obtain ⟨uri, named, alike⟩ := alike
  apply not_climbs_of_alike awaits_fresh (by decide) named alike
  apply climbs
  intro s inside
  exact (isUncounted_respelling inside).1

end Hub

end EditorBridge
