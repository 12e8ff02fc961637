import EditorBridge.Proofs.Command.RoundTrip
import EditorBridge.Proofs.Workspace.Notices

/-!
# Room to count on

A version has 32 bits, and the call for a change that would count on from the greatest one dies. So
versions rise, and all commands are completed, just as long as no count reaches the end of the range
(`countsUp_iff`, `completesAll_iff`), where the count is what a reader of the commands would make of
them without any bound.
-/

namespace EditorBridge

/-- What holds at every place of a longer list holds at those of the list and at the last one. -/
theorem forall_place_concat {α : Type} {P : List α → α → Prop} {l : List α} {a : α} :
    (∀ n b, (l ++ [a])[n]? = some b → P ((l ++ [a]).take n) b) ↔
      (∀ n b, l[n]? = some b → P (l.take n) b) ∧ P l a := by
  constructor
  · intro every
    refine ⟨fun n b found => ?_, ?_⟩
    · have inside := (List.getElem?_eq_some_iff.mp found).1
      have here := every n b (by rw [List.getElem?_append_left inside, found])
      rwa [List.take_append_of_le_length inside.le] at here
    · have here := every l.length a (by simp)
      rwa [List.take_left] at here
  · rintro ⟨every, last⟩ n b found
    rcases Nat.lt_or_ge n l.length with inside | outside
    · rw [List.getElem?_append_left inside] at found
      rw [List.take_append_of_le_length inside.le]
      exact every n b found
    · have only : n = l.length := by
        have bound := (List.getElem?_eq_some_iff.mp found).1
        simp only [List.length_append, List.length_singleton] at bound
        omega
      subst only
      rw [List.getElem?_concat_length] at found
      obtain rfl := Option.some.inj found
      rwa [List.take_left]

/-! ### Counting without a bound -/

/-- The version of a file after a command, if versions had no bound. -/
def Command.count (file : String) (before : Int) (c : Command) : Int :=
  match c.request with
  | .openFile opened =>
      if opened.file = file then (opened.version.getD defaultOpenVersion).toInt else before
  | .changeFile edit =>
      if edit.file = file then (edit.version.map Int32.toInt).getD (before + 1) else before
  | _ => before

/-- The version of a file after commands, if versions had no bound; it is zero before the first of
them. -/
def Command.tally (file : String) (commands : List Command) : Int :=
  commands.foldl (count file) 0

/-- Whether a command leaves the versions of files in their range, where these are counted without a
bound. -/
def Command.Fits (counted : String → Int) (c : Command) : Prop :=
  match c.request with
  | .changeFile edit => edit.version = none → counted edit.file < Int32.maxValue.toInt
  | _ => True

instance (counted : String → Int) : (c : Command) → Decidable (c.Fits counted)
  | ⟨_, .changeFile edit⟩ => inferInstanceAs (Decidable (edit.version = none → _ < _))
  | ⟨_, .openFile _⟩ | ⟨_, .quickInfo _⟩ | ⟨_, .definition _⟩ | ⟨_, .references _⟩ =>
      instDecidableTrue

/-- Whether each of some commands leaves the versions of files in their range. -/
def Command.HaveRoom (commands : List Command) : Prop :=
  ∀ n (c : Command), commands[n]? = some c → c.Fits fun file => tally file (commands.take n)

namespace Workspace

/-- The version that is known of a file, zero if none is. -/
def known (w : Workspace) (file : String) : Int :=
  ((w.version? file).getD 0).toInt

/-- Whether a change that has no version is given one above the one that is known of its file, and
told with it. -/
def CountsOn (w : Workspace) (c : Command) : Prop :=
  ∀ edit, c.request = .changeFile edit → edit.version = none →
    ∃ v : Int32, (w.prepare c).2 = some ⟨c.seq, .changeFile { edit with version := some v }⟩ ∧
      w.known edit.file < v.toInt ∧
      ∀ notice, (w.prepare c).2.bind Command.notice? = some notice →
        ∃ uri, notice = .changed uri v.toInt

/-- Whether each of some commands is counted on. -/
def CountsUp (w : Workspace) (commands : List Command) : Prop :=
  ∀ n c, commands[n]? = some c → (w.after (commands.take n)).CountsOn c

variable {w : Workspace}

theorem known_eq (w : Workspace) (file : String) :
    w.known file = ((w.version? file).map Int32.toInt).getD 0 := by
  rw [known]
  cases w.version? file <;> rfl

/-- There is room above what is known of a file unless that is the greatest version. -/
theorem known_lt_iff (file : String) :
    w.known file < Int32.maxValue.toInt ↔ w.version? file ≠ some Int32.maxValue := by
  rw [known]
  cases w.version? file with
  | none => exact iff_of_true (by decide) nofun
  | some v =>
      have most := v.toInt_le
      have greatest : Int32.maxValue.toInt = 2147483647 := by decide
      rw [Option.getD_some, ne_eq, Option.some.injEq, ← Int32.toInt_inj]
      omega

/-- A command leaves versions in their range just if it can be counted. -/
theorem fits_known_iff {c : Command} : c.Fits w.known ↔ w.CanCount c := by
  obtain ⟨seq, request⟩ := c
  cases request with
  | quickInfo spot => exact Iff.rfl
  | definition spot => exact Iff.rfl
  | references spot => exact Iff.rfl
  | openFile opened => exact Iff.rfl
  | changeFile edit => exact imp_congr_right fun _ => known_lt_iff edit.file

theorem countsOn_change (seq : Int64) {edit : Edit} :
    w.CountsOn ⟨seq, .changeFile edit⟩ ↔ w.CanCount ⟨seq, .changeFile edit⟩ := by
  rw [← isSome_prepare_iff]
  cases counted : edit.version.or (w.versions.next? edit.file) with
  | none =>
      rw [prepare_change_of_none seq counted]
      refine iff_of_false (fun countsOn => ?_) nofun
      obtain ⟨v, completed, -⟩ := countsOn edit rfl (Option.or_eq_none_iff.mp counted).1
      rw [prepare_change_of_none seq counted] at completed
      cases completed
  | some v =>
      refine iff_of_true ?_ (by rw [prepare_change seq counted]; rfl)
      rintro _ ⟨⟩ uncounted
      rw [prepare_change seq counted]
      rw [uncounted, Option.none_or] at counted
      refine ⟨v, rfl, ?_, ?_⟩
      · rw [known_eq, toInt_next? counted]
        exact Int.lt_succ _
      · intro notice told
        rw [Option.bind_some, Command.notice?_changeFile] at told
        obtain ⟨uri, -, told⟩ := Option.bind_eq_some_iff.mp told
        obtain ⟨range, -, rfl⟩ := Option.map_eq_some_iff.mp told
        exact ⟨uri, rfl⟩

/-- A command is counted on just if it can be counted. -/
theorem countsOn_iff {c : Command} : w.CountsOn c ↔ w.CanCount c := by
  obtain ⟨seq, request⟩ := c
  cases request with
  | quickInfo spot => exact iff_of_true (fun _ same => nomatch same) trivial
  | definition spot => exact iff_of_true (fun _ same => nomatch same) trivial
  | references spot => exact iff_of_true (fun _ same => nomatch same) trivial
  | openFile opened => exact iff_of_true (fun _ same => nomatch same) trivial
  | changeFile edit => exact countsOn_change seq

theorem known_set (file other : String) (v : Int32) :
    ({ w with versions := w.versions.set file v } : Workspace).known other =
      if file = other then v.toInt else w.known other := by
  rw [known, version?_set, apply_ite (Option.getD · 0), apply_ite Int32.toInt]
  rfl

/-- A command that can be counted is counted as it would be without a bound. -/
theorem known_prepare {c : Command} (canCount : w.CanCount c) (file : String) :
    (w.prepare c).1.known file = c.count file (w.known file) := by
  obtain ⟨seq, request⟩ := c
  cases request with
  | quickInfo spot => rfl
  | definition spot => rfl
  | references spot => rfl
  | openFile opened => exact known_set opened.file file _
  | changeFile edit =>
      cases counted : edit.version.or (w.versions.next? edit.file) with
      | none =>
          have comesBack := isSome_prepare_iff.mpr canCount
          rw [prepare_change_of_none seq counted] at comesBack
          cases comesBack
      | some v =>
          rw [prepare_change seq counted]
          refine (known_set edit.file file v).trans ?_
          change _ = if edit.file = file then (edit.version.map Int32.toInt).getD (w.known file + 1)
            else w.known file
          by_cases same : edit.file = file
          · subst same
            rw [if_pos rfl, if_pos rfl]
            cases given : edit.version with
            | some u =>
                rw [given] at counted
                exact congrArg Int32.toInt (Option.some.inj counted).symm
            | none =>
                rw [given] at counted
                rw [toInt_next? counted, ← known_eq]
                rfl
          · rw [if_neg same, if_neg same]

/-! ### Several commands -/

theorem haveRoom_concat {commands : List Command} {c : Command} :
    Command.HaveRoom (commands ++ [c]) ↔
      Command.HaveRoom commands ∧ c.Fits fun file => Command.tally file commands :=
  forall_place_concat
    (P := fun earlier (c : Command) => c.Fits fun file => Command.tally file earlier)

/-- What is known of a file is what was counted, as long as the commands have room; they have room
just if each of them can be counted. -/
theorem known_after (fresh : w.versions = []) {commands : List Command} :
    (Command.HaveRoom commands ↔
      ∀ n c, commands[n]? = some c → (w.after (commands.take n)).CanCount c) ∧
    (Command.HaveRoom commands →
      (w.after commands).known = fun file => Command.tally file commands) := by
  induction commands using List.reverseRecOn with
  | nil =>
      refine ⟨iff_of_true (fun _ _ => nofun) (fun _ _ => nofun), fun _ => ?_⟩
      funext file
      change w.known file = 0
      rw [known, version?, fresh]
      rfl
  | append_singleton commands c ih =>
      obtain ⟨room, counts⟩ := ih
      have fits (before : Command.HaveRoom commands) :
          (c.Fits fun file => Command.tally file commands) ↔ (w.after commands).CanCount c := by
        rw [← counts before, fits_known_iff]
      refine ⟨?_, fun all => ?_⟩
      · rw [haveRoom_concat,
          forall_place_concat (P := fun earlier c => (w.after earlier).CanCount c), ← room]
        exact and_congr_right fits
      · obtain ⟨before, last⟩ := haveRoom_concat.mp all
        funext file
        rw [after_concat, known_prepare ((fits before).mp last), counts before]
        exact (List.foldl_concat ..).symm

/-- Versions rise just as long as no count reaches the end of the range. -/
theorem countsUp_iff (fresh : w.versions = []) {commands : List Command} :
    w.CountsUp commands ↔ Command.HaveRoom commands := by
  rw [(known_after fresh).1]
  exact forall_congr' fun n => forall_congr' fun c => imp_congr_right fun _ => countsOn_iff

/-- On the page, versions rise up to the greatest one. -/
theorem countsUp_page : pad.CountsUp page := by
  have each : ∀ n < 6, ∀ c ∈ page[n]?,
      c.Fits fun file => Command.tally file (page.take n) := by decide
  refine (countsUp_iff rfl).mpr fun n c found => ?_
  exact each n (List.getElem?_eq_some_iff.mp found).1 c found

/-- A file is opened in the greatest version. -/
def brimming : Command :=
  ⟨1, .openFile ⟨"/a", "old", none, some Int32.maxValue⟩⟩

/-- A file is opened in the greatest version and changed. -/
def brim : List Command :=
  [brimming, rewriting 2 "/a" none]

/-- The change has no version above the greatest one, and it is not sent. -/
theorem not_countsUp_brim :
    (∀ c ∈ brim, Command.parse? c.written = some c) ∧ ¬ pad.CountsUp brim ∧
      (pad.completed brim).length = 1 ∧ (pad.after brim).version? "/a" = some Int32.maxValue := by
  refine ⟨by decide +kernel, fun countsUp => ?_, by decide, by decide⟩
  have canCount := countsOn_iff.mp (countsUp 1 (rewriting 2 "/a" none) rfl)
  exact absurd canCount (by decide)

/-! ### Commands that are completed -/

/-- Whether a workspace completes all of some commands. -/
def CompletesAll (w : Workspace) (commands : List Command) : Prop :=
  (w.completed commands).length = commands.length

theorem length_completed_le (w : Workspace) (commands : List Command) :
    (w.completed commands).length ≤ commands.length := by
  induction commands using List.reverseRecOn with
  | nil => exact Nat.le_refl 0
  | append_singleton commands c ih =>
      have last : ((w.after commands).prepare c).2.toList.length ≤ 1 :=
        Option.length_toList_le
      rw [completed_concat, List.length_append, List.length_append]
      exact Nat.add_le_add ih last

theorem completesAll_concat {commands : List Command} {c : Command} :
    w.CompletesAll (commands ++ [c]) ↔
      w.CompletesAll commands ∧ ((w.after commands).prepare c).2.isSome = true := by
  have most := length_completed_le w commands
  rw [CompletesAll, CompletesAll, completed_concat, List.length_append, List.length_append]
  cases ((w.after commands).prepare c).2 with
  | none => simp; omega
  | some done => simp

theorem CompletesAll.dropLast {commands : List Command} (all : w.CompletesAll commands) :
    w.CompletesAll commands.dropLast := by
  rcases List.eq_nil_or_concat commands with rfl | ⟨earlier, c, rfl⟩
  · exact all
  · rw [List.concat_eq_append] at all ⊢
    rw [List.dropLast_concat]
    exact (completesAll_concat.mp all).1

/-- All commands are completed just as long as no count reaches the end of the range. -/
theorem completesAll_iff (fresh : w.versions = []) {commands : List Command} :
    w.CompletesAll commands ↔ Command.HaveRoom commands := by
  rw [(known_after fresh).1]
  induction commands using List.reverseRecOn with
  | nil => exact iff_of_true rfl (fun _ _ => nofun)
  | append_singleton commands c ih =>
      rw [forall_place_concat (P := fun earlier c => (w.after earlier).CanCount c),
        completesAll_concat, isSome_prepare_iff, ih]

end Workspace

end EditorBridge
