import EditorBridge.Workspace.Basic
import Mathlib.Data.List.Induction

/-!
# Counting versions

Commands that go through a workspace one after the other, and what it makes of them. The version
that is known of a file is always the one that the last notice about it carries (`version?_after`),
whoever counted it. From this and from what is made of a single command (`completes_prepare`) comes
what holds of a whole count (`counts`). A command whose call dies (`isSome_prepare_iff`) leaves the
workspace as it is.
-/

namespace EditorBridge

/-- The version that a request carries. -/
def Request.version? : Request → Option Int32
  | openFile opened => opened.version
  | changeFile edit => edit.version
  | _ => none

/-- Whether a command tells the content of a file. -/
def Command.tells (file : String) (c : Command) : Bool :=
  !c.kind.isQuery && c.request.file == file

/-- The version that the last command to tell the content of a file carries. -/
def Command.lastVersion? (file : String) (commands : List Command) : Option Int32 :=
  (commands.filter (·.tells file)).getLast?.bind (·.request.version?)

theorem Command.lastVersion?_concat (file : String) (commands : List Command) (c : Command) :
    lastVersion? file (commands ++ [c]) =
      if c.tells file then c.request.version? else lastVersion? file commands := by
  by_cases tells : c.tells file = true
  · simp [lastVersion?, tells]
  · simp [lastVersion?, tells]

/-- A version that is not the greatest is counted on by one. -/
theorem toInt_next {v : Int32} (less : v ≠ Int32.maxValue) : (v + 1).toInt = v.toInt + 1 := by
  have bound : v.toInt ≠ Int32.maxValue.toInt := fun same => less (Int32.toInt_inj.mp same)
  have greatest : Int32.maxValue.toInt = 2147483647 := by decide
  have most := v.toInt_le
  have least := v.le_toInt
  have one : (1 : Int32).toInt = 1 := by decide
  rw [Int32.toInt_add, one, Int.bmod_eq_of_le]
  · omega
  · omega

namespace Workspace

/-- Takes commands one after the other; gives those that are completed. -/
def prepareAll (w : Workspace) : List Command → Workspace × List Command
  | [] => (w, [])
  | c :: rest =>
      let (w, first?) := w.prepare c
      let (w, others) := w.prepareAll rest
      (w, first?.toList ++ others)

/-- The workspace after commands. -/
def after (w : Workspace) (commands : List Command) : Workspace :=
  (w.prepareAll commands).1

/-- The commands as they are completed. -/
def completed (w : Workspace) (commands : List Command) : List Command :=
  (w.prepareAll commands).2

theorem prepareAll_concat (w : Workspace) (commands : List Command) (c : Command) :
    w.prepareAll (commands ++ [c]) =
      (((w.after commands).prepare c).1,
        w.completed commands ++ ((w.after commands).prepare c).2.toList) := by
  induction commands generalizing w with
  | nil => simp [prepareAll, after, completed]
  | cons first commands ih =>
      have others := ih (w.prepare first).1
      simp only [List.cons_append, prepareAll, others, after, completed, List.append_assoc]

theorem after_concat (w : Workspace) (commands : List Command) (c : Command) :
    w.after (commands ++ [c]) = ((w.after commands).prepare c).1 := by
  rw [after, prepareAll_concat]

theorem completed_concat (w : Workspace) (commands : List Command) (c : Command) :
    w.completed (commands ++ [c]) =
      w.completed commands ++ ((w.after commands).prepare c).2.toList := by
  rw [completed, prepareAll_concat]

/-! ### One command -/

/-- What becomes of a command, where files have versions and the workspace may have a language. A
query stays as it is (`query`). An opened file starts at zero, unless the editor counts, and has the
language of the workspace, unless the editor names one (`opened`). A change is one more than the
version before it, unless the editor counts (`changed`). -/
inductive Completes (language : Option String) (versions : String → Option Int32) :
    Command → Command → Prop where
  | query {c : Command} (isQuery : c.kind.isQuery = true) : Completes language versions c c
  | opened {seq : Int64} {given done : OpenedFile} (file : done.file = given.file)
      (text : done.text = given.text)
      (kept : ∀ v, given.version = some v → done.version = some v)
      (first : given.version = none → done.version = some 0)
      (named : ∀ l, given.languageId = some l → done.languageId = some l)
      (unnamed : given.languageId = none → done.languageId = language) :
      Completes language versions ⟨seq, .openFile given⟩ ⟨seq, .openFile done⟩
  | changed {seq : Int64} {given done : Edit}
      (same : { done with version := given.version } = given)
      (kept : ∀ v, given.version = some v → done.version = some v)
      (next : given.version = none → ∃ v, done.version = some v ∧
        v.toInt = ((versions given.file).map Int32.toInt).getD 0 + 1) :
      Completes language versions ⟨seq, .changeFile given⟩ ⟨seq, .changeFile done⟩

/-- Whether a command can be counted: it is no change without a version of a file that has reached
the greatest one. -/
def CanCount (w : Workspace) (c : Command) : Prop :=
  match c.request with
  | .changeFile edit => edit.version = none → w.version? edit.file ≠ some Int32.maxValue
  | _ => True

instance (w : Workspace) (c : Command) : Decidable (w.CanCount c) := by
  unfold CanCount
  split <;> infer_instance

variable {w : Workspace} {c done : Command}

theorem prepare_query (isQuery : c.kind.isQuery = true) : w.prepare c = (w, some c) := by
  obtain ⟨seq, request⟩ := c
  cases request with
  | quickInfo spot => rfl
  | definition spot => rfl
  | references spot => rfl
  | openFile opened => cases isQuery
  | changeFile edit => cases isQuery

theorem prepare_openFile (w : Workspace) (seq : Int64) (opened : OpenedFile) :
    w.prepare ⟨seq, .openFile opened⟩ =
      ({ w with versions :=
          w.versions.set opened.file (opened.version.getD defaultOpenVersion) },
        some ⟨seq, .openFile { opened with
          version := some (opened.version.getD defaultOpenVersion)
          languageId := opened.languageId.or w.spec.languageId }⟩) :=
  rfl

/-- A change that has a version, of its own or by counting on, tells it, and then its file has
it. -/
theorem prepare_change (seq : Int64) {edit : Edit} {v : Int32}
    (counted : edit.version.or (w.versions.next? edit.file) = some v) :
    w.prepare ⟨seq, .changeFile edit⟩ =
      ({ w with versions := w.versions.set edit.file v },
        some ⟨seq, .changeFile { edit with version := some v }⟩) := by
  simp only [prepare, Versions.prepare, counted, Option.map_some]

/-- A change that cannot be counted leaves the workspace as it is. -/
theorem prepare_change_of_none (seq : Int64) {edit : Edit}
    (full : edit.version.or (w.versions.next? edit.file) = none) :
    w.prepare ⟨seq, .changeFile edit⟩ = (w, none) := by
  simp only [prepare, Versions.prepare, full, Option.map_none]

/-- There is a next version unless a file has reached the greatest one. -/
theorem next?_eq_none_iff (w : Workspace) (file : String) :
    w.versions.next? file = none ↔ w.version? file = some Int32.maxValue := by
  have apart : (0 : Int32) ≠ Int32.maxValue := by decide
  rw [Versions.next?, ← version?]
  cases w.version? file with
  | none => simp [apart]
  | some v => simp

/-- The next version is one more than the one before. -/
theorem toInt_next? {file : String} {v : Int32} (next : w.versions.next? file = some v) :
    v.toInt = ((w.version? file).map Int32.toInt).getD 0 + 1 := by
  rw [Versions.next?, ← version?] at next
  obtain ⟨less, same⟩ := Option.ite_none_left_eq_some.mp next
  obtain rfl := Option.some.inj same
  cases before : w.version? file with
  | none => decide
  | some u =>
      rw [before, Option.getD_some] at less
      exact toInt_next less

/-- The call for a command comes back just if the command can be counted. -/
theorem isSome_prepare_iff : (w.prepare c).2.isSome = true ↔ w.CanCount c := by
  obtain ⟨seq, request⟩ := c
  cases request with
  | quickInfo spot => exact iff_of_true rfl trivial
  | definition spot => exact iff_of_true rfl trivial
  | references spot => exact iff_of_true rfl trivial
  | openFile opened => exact iff_of_true rfl trivial
  | changeFile edit =>
      change _ ↔ (edit.version = none → w.version? edit.file ≠ some Int32.maxValue)
      cases counted : edit.version.or (w.versions.next? edit.file) with
      | some v =>
          rw [prepare_change seq counted]
          refine iff_of_true rfl fun uncounted full => ?_
          rw [uncounted, Option.none_or, (next?_eq_none_iff w edit.file).mpr full] at counted
          cases counted
      | none =>
          rw [prepare_change_of_none seq counted]
          obtain ⟨uncounted, full⟩ := Option.or_eq_none_iff.mp counted
          refine iff_of_false nofun fun less => ?_
          exact less uncounted ((next?_eq_none_iff w edit.file).mp full)

theorem prepare_of_not_canCount (full : ¬ w.CanCount c) : w.prepare c = (w, none) := by
  obtain ⟨seq, request⟩ := c
  cases request with
  | quickInfo spot => exact absurd trivial full
  | definition spot => exact absurd trivial full
  | references spot => exact absurd trivial full
  | openFile opened => exact absurd trivial full
  | changeFile edit =>
      cases counted : edit.version.or (w.versions.next? edit.file) with
      | none => exact prepare_change_of_none seq counted
      | some v =>
          have comesBack := prepare_change seq counted
          exact absurd (isSome_prepare_iff.mp (by rw [comesBack]; rfl)) full

theorem completes_prepare (finished : (w.prepare c).2 = some done) :
    Completes w.spec.languageId w.version? c done := by
  obtain ⟨seq, request⟩ := c
  cases request with
  | quickInfo spot => exact Option.some.inj finished ▸ .query rfl
  | definition spot => exact Option.some.inj finished ▸ .query rfl
  | references spot => exact Option.some.inj finished ▸ .query rfl
  | openFile opened =>
      rw [prepare_openFile] at finished
      obtain rfl := Option.some.inj finished
      refine .opened rfl rfl ?_ ?_ ?_ ?_
      · intro v given
        simp [given]
      · intro uncounted
        simp [uncounted, defaultOpenVersion]
      · intro language named
        simp [named]
      · intro unnamed
        simp [unnamed]
  | changeFile edit =>
      cases counted : edit.version.or (w.versions.next? edit.file) with
      | none =>
          rw [prepare_change_of_none seq counted] at finished
          cases finished
      | some v =>
          rw [prepare_change seq counted] at finished
          obtain rfl := Option.some.inj finished
          refine .changed rfl ?_ ?_
          · intro u given
            rw [given] at counted
            exact counted.symm
          · intro uncounted
            rw [uncounted] at counted
            exact ⟨v, rfl, toInt_next? counted⟩

/-- To complete a command changes neither its number nor its kind. -/
theorem frame_prepare (finished : (w.prepare c).2 = some done) :
    done.seq = c.seq ∧ done.kind = c.kind := by
  cases completes_prepare finished with
  | query | opened | changed => exact ⟨rfl, rfl⟩

theorem carries_prepare (isNotice : c.kind.isQuery = false)
    (finished : (w.prepare c).2 = some done) : ∃ v, done.request.version? = some v := by
  cases completes_prepare finished with
  | query isQuery =>
      rw [isQuery] at isNotice
      cases isNotice
  | @opened seq given done file text kept first =>
      cases version : given.version with
      | none => exact ⟨_, first version⟩
      | some v => exact ⟨v, kept v version⟩
  | @changed seq given done same kept next =>
      cases version : given.version with
      | none =>
          obtain ⟨v, carried, -⟩ := next version
          exact ⟨v, carried⟩
      | some v => exact ⟨v, kept v version⟩

theorem version?_set (w : Workspace) (file other : String) (v : Int32) :
    ({ w with versions := w.versions.set file v } : Workspace).version? other =
      if file = other then some v else w.version? other := by
  by_cases same : file = other
  · rw [if_pos same, ← same, version?, Versions.get?_set_self]
  · rw [if_neg same, version?, Versions.get?_set_of_ne _ _ (Ne.symm same)]
    rfl

theorem version?_prepare (finished : (w.prepare c).2 = some done) (file : String) :
    (w.prepare c).1.version? file =
      if done.tells file then done.request.version? else w.version? file := by
  obtain ⟨seq, request⟩ := c
  cases request with
  | quickInfo spot => exact Option.some.inj finished ▸ rfl
  | definition spot => exact Option.some.inj finished ▸ rfl
  | references spot => exact Option.some.inj finished ▸ rfl
  | openFile opened =>
      rw [prepare_openFile] at finished ⊢
      obtain rfl := Option.some.inj finished
      refine (version?_set w opened.file file _).trans ?_
      simp [Command.tells, Command.kind, Request.kind, Kind.isQuery, Request.file,
        Request.version?]
  | changeFile edit =>
      cases counted : edit.version.or (w.versions.next? edit.file) with
      | none =>
          rw [prepare_change_of_none seq counted] at finished
          cases finished
      | some v =>
          rw [prepare_change seq counted] at finished ⊢
          obtain rfl := Option.some.inj finished
          refine (version?_set w edit.file file v).trans ?_
          simp [Command.tells, Command.kind, Request.kind, Kind.isQuery, Request.file,
            Request.version?]

/-! ### A count -/

theorem spec_after (w : Workspace) (commands : List Command) :
    (w.after commands).spec = w.spec := by
  induction commands generalizing w with
  | nil => rfl
  | cons c commands ih => exact ih (w.prepare c).1

/-- What is known of a file is what the last notice about it carries. -/
theorem version?_after (fresh : w.versions = []) (commands : List Command) (file : String) :
    (w.after commands).version? file = Command.lastVersion? file (w.completed commands) := by
  induction commands using List.reverseRecOn with
  | nil =>
      change w.version? file = none
      rw [version?, fresh]
      rfl
  | append_singleton commands c ih =>
      rw [after_concat, completed_concat]
      cases finished : ((w.after commands).prepare c).2 with
      | none =>
          have full : ¬ (w.after commands).CanCount c := fun canCount => by
            have comesBack := isSome_prepare_iff.mpr canCount
            rw [finished] at comesBack
            cases comesBack
          rw [prepare_of_not_canCount full, Option.toList_none, List.append_nil]
          exact ih
      | some done =>
          rw [Option.toList_some, Command.lastVersion?_concat, ← ih]
          exact version?_prepare finished file

/-- What holds of a command that goes through a workspace after others. -/
structure Counts (w : Workspace) (earlier : List Command) (c : Command) : Prop where
  completes : ∃ done, w.completed (earlier ++ [c]) = w.completed earlier ++ [done] ∧
    Completes w.spec.languageId (w.after earlier).version? c done ∧
    (c.kind.isQuery = false → ∃ v, done.request.version? = some v)
  tracks : ∀ file, (w.after (earlier ++ [c])).version? file =
    Command.lastVersion? file (w.completed (earlier ++ [c]))
  queries : c.kind.isQuery = true → w.after (earlier ++ [c]) = w.after earlier

/-- A workspace that knows of no file yet counts the versions of files right, as long as it is not
asked to count on from the greatest one. -/
theorem counts (fresh : w.versions = []) {commands : List Command}
    (countable : ∀ n c, commands[n]? = some c → (w.after (commands.take n)).CanCount c) (n : Nat)
    (c : Command) (found : commands[n]? = some c) : w.Counts (commands.take n) c := by
  obtain ⟨done, finished⟩ :=
    Option.isSome_iff_exists.mp (isSome_prepare_iff.mpr (countable n c found))
  refine ⟨⟨done, ?_, ?_, ?_⟩, ?_, ?_⟩
  · rw [completed_concat, finished, Option.toList_some]
  · rw [← spec_after w (commands.take n)]
    exact completes_prepare finished
  · intro isNotice
    exact carries_prepare isNotice finished
  · intro file
    exact version?_after fresh (commands.take n ++ [c]) file
  · intro isQuery
    rw [after_concat, prepare_query isQuery]

/-- A workspace for files in a language. -/
def pad : Workspace :=
  .start ⟨"/", "server"⟩ ⟨"server", [], [], some "prose"⟩ 0 1 0

/-- A change of the whole content of a file. -/
def rewriting (seq : Int64) (file : String) (version : Option Int32) : Command :=
  ⟨seq, .changeFile ⟨file, "new", none, none, none, none, version⟩⟩

/-- A file is opened, changed, and changed to the version before the greatest one; then a place in
it is asked for, another file is changed that nobody has opened, and the first one again. -/
def page : List Command :=
  [⟨1, .openFile ⟨"/a", "old", none, none⟩⟩, rewriting 2 "/a" none,
    rewriting 3 "/a" (some 2147483646), ⟨4, .definition ⟨"/a", 1, 1⟩⟩, rewriting 5 "/b" none,
    rewriting 6 "/a" none]

/-- The last change of the page is counted on to the greatest version. -/
theorem counts_page :
    (∀ n c, page[n]? = some c → (pad.after (page.take n)).CanCount c) ∧
      pad.Counts (page.take 5) (rewriting 6 "/a" none) ∧
      (pad.after page).version? "/a" = some Int32.maxValue ∧
      (pad.after page).version? "/b" = some 1 := by
  have each : ∀ n < 6, ∀ c ∈ page[n]?, (pad.after (page.take n)).CanCount c := by decide
  have countable : ∀ n c, page[n]? = some c → (pad.after (page.take n)).CanCount c := by
    intro n c found
    exact each n (List.getElem?_eq_some_iff.mp found).1 c found
  exact ⟨countable, counts rfl countable 5 _ rfl, by decide, by decide⟩

end Workspace

end EditorBridge
