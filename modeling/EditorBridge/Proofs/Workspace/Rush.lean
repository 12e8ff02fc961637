import EditorBridge.Proofs.Workspace.Notices
import Mathlib.Logic.Relation

/-!
# A rush of changes

Many callers change one file at once. A change is prepared, which counts it, and written afterwards,
and in between other callers may do either. The call for a change that would count on from the
greatest version dies instead, and nothing is written for it. The versions on the wire are those of
the order in which the changes were prepared (`changes_eq`). So all changes come through with rising
versions exactly if there are versions for them and they are written in the order in which they were
prepared (`rises_iff`). A change that was prepared later can be written first, and the versions can
run out (`not_rises`).
-/

namespace EditorBridge

/-- The version that a notice tells a change of a document to. -/
def Notice.changeOf? (uri : String) : Notice → Option Int
  | changed other version => if other = uri then some version else none
  | opened _ _ => none

/-- The versions that changes of a document are told with, the first one first. -/
def Notice.changes (uri : String) (notices : List Notice) : List Int :=
  notices.filterMap (changeOf? uri)

/-- How far a caller who changes a file has come (`Service::change`, `Service::post`): it has a
change that has no number yet, it has a command, its command is completed for a channel and has a
place in the order of preparation, the caller has been told whether it was written, or its call has
died. -/
inductive Hub.Caller where
  | asking (edit : Edit)
  | holding (command : Command)
  | ready (place channel : Nat) (command : Command)
  | finished (written : Bool)
  | dead

/-- A hub and those who change a file through a workspace of it, with how many changes have been
prepared, how many calls have died, and the places of the changes that have been written, the first
one first. -/
structure Hub.Rush (η : Type) where
  hub : Hub η
  callers : List Hub.Caller
  prepared : Nat
  died : Nat
  written : List Nat

namespace Hub.Rush

variable {η : Type}

/-- A hub to which the callers are still to come. -/
def start (hub : Hub η) : Rush η :=
  ⟨hub, [], 0, 0, []⟩

/-- Whether every change comes through, and those on the wire have rising versions. -/
structure Rises (n : Nat) (uri : String) (s : Rush η) : Prop where
  whole : s.died = 0
  rising : (Notice.changes uri (s.hub.notices n)).Pairwise (· < ·)

/-- What happens next (`Service::change`, `Service::prepare`, `LspClient::post`). A caller comes
with a change, which gets its number, or with a command. To prepare a command and to write it are
two steps (`prepare`, `write`), between which others may do both. The call dies if the command
cannot be prepared (`die`). -/
inductive Step (n : Nat) (file : String) : Rush η → Rush η → Prop where
  | ask {s : Rush η} {edit : Edit} (about : edit.file = file) (uncounted : edit.version = none) :
      Step n file s { s with callers := s.callers ++ [.asking edit] }
  | bring {s : Rush η} {seq : Int64} {edit : Edit} (about : edit.file = file)
      (uncounted : edit.version = none) :
      Step n file s { s with callers := s.callers ++ [.holding ⟨seq, .changeFile edit⟩] }
  | number {s : Rush η} {i : Nat} {edit : Edit} {h : Hub η} {c : Command}
      (caller : s.callers[i]? = some (.asking edit))
      (numbered : s.hub.number n (.changeFile edit) = (h, some c)) :
      Step n file s { s with hub := h, callers := s.callers.set i (.holding c) }
  | prepare {s : Rush η} {i channel : Nat} {h : Hub η} {c done : Command}
      (caller : s.callers[i]? = some (.holding c))
      (completed : s.hub.prepare n c = (h, some (channel, done))) :
      Step n file s { s with
        hub := h
        callers := s.callers.set i (.ready s.prepared channel done)
        prepared := s.prepared + 1 }
  | die {s : Rush η} {i : Nat} {h : Hub η} {c : Command}
      (caller : s.callers[i]? = some (.holding c)) (fails : s.hub.prepare n c = (h, none)) :
      Step n file s { s with
        hub := h
        callers := s.callers.set i .dead
        died := s.died + 1 }
  | write {s : Rush η} {i place channel : Nat} {h : Hub η} {c : Command} {told : Bool}
      (caller : s.callers[i]? = some (.ready place channel c))
      (posted : s.hub.post channel c = (h, told)) :
      Step n file s { s with
        hub := h
        callers := s.callers.set i (.finished told)
        written := if told then s.written ++ [place] else s.written }

/-- Whether a caller has what it should have, where the file was opened with a version and commands
go to a channel. -/
def Proper (file : String) (first : Int) (primary : Nat) : Hub.Caller → Prop
  | .asking edit => edit.file = file ∧ edit.version = none
  | .holding c => ∃ seq edit, c = ⟨seq, .changeFile edit⟩ ∧ edit.file = file ∧ edit.version = none
  | .ready place channel c => channel = primary ∧
      ∃ seq edit v, c = ⟨seq, .changeFile edit⟩ ∧ edit.file = file ∧
        edit.version = some v ∧ v.toInt = first + (place + 1 : Nat)
  | .finished _ | .dead => True

/-- What always holds in a rush, where the file was opened with a version. -/
structure Counted (n : Nat) (file uri : String) (first : Int) (s : Rush η) : Prop where
  wire : ∃ w sent, s.hub.Live n w sent ∧
    (∃ v, w.version? file = some v ∧ v.toInt = first + s.prepared) ∧
    Notice.changes uri (sent.filterMap Notice.ofJson?) =
      s.written.map (fun place => first + (place + 1 : Nat)) ∧
    ∀ caller ∈ s.callers, Proper file first w.primary caller
  full : s.died = 0 ∨ first + s.prepared = Int32.maxValue.toInt

variable {n : Nat} {file uri : String} {first : Int} {s t : Rush η}

/-- A change that comes after others counts on from them, or its call dies because the versions have
run out. -/
theorem prepare_of_tracked {w : Workspace} {u : Int32} (tracked : w.version? file = some u)
    (seq : Int64) {edit : Edit} (about : edit.file = file) (uncounted : edit.version = none) :
    (∃ v, (w.prepare ⟨seq, .changeFile edit⟩).1.version? file = some v ∧
        v.toInt = u.toInt + 1 ∧ (w.prepare ⟨seq, .changeFile edit⟩).2 =
          some ⟨seq, .changeFile { edit with version := some v }⟩) ∨
      w.prepare ⟨seq, .changeFile edit⟩ = (w, none) ∧ u = Int32.maxValue := by
  subst about
  cases next : w.versions.next? edit.file with
  | none =>
      refine .inr ⟨Workspace.prepare_change_of_none seq (by rw [uncounted, next]; rfl), ?_⟩
      exact Option.some.inj (tracked.symm.trans ((Workspace.next?_eq_none_iff w edit.file).mp next))
  | some v =>
      have counts := Workspace.toInt_next? next
      rw [tracked] at counts
      refine .inl ⟨v, ?_, counts, ?_⟩
      all_goals rw [Workspace.prepare_change seq (by rw [uncounted, next]; rfl)]
      exact (Workspace.version?_set ..).trans (if_pos rfl)

/-- What is written of a change of the file, and what it is to the server. -/
theorem wire?_change (named : Uri.ofFileStrict? file = some uri) {seq : Int64} {edit : Edit}
    (about : edit.file = file) {v : Int32} (counted : edit.version = some v) {m : Json}
    (said : (⟨seq, .changeFile edit⟩ : Command).wire? = some m) :
    Notice.ofJson? m = some (.changed uri v.toInt) := by
  have notice := Command.notice?_changeFile seq edit
  rw [Command.notice?, said, about, named, counted, Option.bind_some, Option.bind_some] at notice
  cases ranged : edit.range? with
  | some range =>
      rw [ranged] at notice
      exact notice
  | none =>
      rw [Command.wire?_of_notice rfl, Request.toParams?, Edit.toParams?, ranged] at said
      rw [about, named] at said
      cases said

/-- A change of the file that is posted tells the server its version if it is written. -/
theorem live_post_change {h : Hub η} {w : Workspace} {sent : List Json} (live : h.Live n w sent)
    (named : Uri.ofFileStrict? file = some uri) (seq : Int64) {edit : Edit}
    (about : edit.file = file) {v : Int32} (counted : edit.version = some v) :
    ∃ more, (h.post w.primary ⟨seq, .changeFile edit⟩).1.Live n w (sent ++ more) ∧
      Notice.changes uri (more.filterMap Notice.ofJson?) =
        if (h.post w.primary ⟨seq, .changeFile edit⟩).2 then [v.toInt] else [] := by
  obtain ⟨stillLive, taken⟩ := live_post live ⟨seq, .changeFile edit⟩
  refine ⟨_, stillLive, ?_⟩
  rw [taken]
  cases said : (⟨seq, .changeFile edit⟩ : Command).wire? with
  | none => rfl
  | some m =>
      have notice := wire?_change named about counted said
      simp [notice, Notice.changes, Notice.changeOf?]

theorem counted_step (named : Uri.ofFileStrict? file = some uri)
    (counted : Counted n file uri first s) (step : Step n file s t) :
    Counted n file uri first t := by
  obtain ⟨⟨w, sent, live, tracked, told, proper⟩, full⟩ := counted
  -- Whoever has not moved has what it had.
  have others {i : Nat} {next : Hub.Caller}
      (moved : Proper file first w.primary next) :
      ∀ caller ∈ s.callers.set i next, Proper file first w.primary caller := by
    intro caller inside
    rcases List.mem_or_eq_of_mem_set inside with old | rfl
    · exact proper caller old
    · exact moved
  have joined {next : Hub.Caller} (new : Proper file first w.primary next) :
      ∀ caller ∈ s.callers ++ [next], Proper file first w.primary caller := by
    intro caller inside
    rcases List.mem_append.mp inside with old | last
    · exact proper caller old
    · rw [List.mem_singleton.mp last]
      exact new
  obtain ⟨v, tracked, reached⟩ := tracked
  cases step with
  | ask about uncounted =>
      exact ⟨⟨w, sent, live, ⟨v, tracked, reached⟩, told, joined ⟨about, uncounted⟩⟩, full⟩
  | bring about uncounted =>
      exact ⟨⟨w, sent, live, ⟨v, tracked, reached⟩, told, joined ⟨_, _, rfl, about, uncounted⟩⟩,
        full⟩
  | @number i edit h c caller numbered =>
      obtain ⟨result, stillLive⟩ := live_number live (.changeFile edit)
      obtain ⟨rfl, same⟩ := Prod.mk.inj (numbered.symm.trans result)
      obtain rfl := Option.some.inj same
      obtain ⟨about, uncounted⟩ := proper _ (List.mem_of_getElem? caller)
      exact ⟨⟨_, sent, stillLive, ⟨v, tracked, reached⟩, told,
        others ⟨_, _, rfl, about, uncounted⟩⟩, full⟩
  -- The version is counted here, and its place is settled with it.
  | @prepare i channel h c done caller completed =>
      obtain ⟨seq, edit, rfl, about, uncounted⟩ := proper _ (List.mem_of_getElem? caller)
      obtain ⟨result, stillLive⟩ := live_prepare live ⟨seq, .changeFile edit⟩
      obtain ⟨rfl, given⟩ := Prod.mk.inj (completed.symm.trans result)
      rcases prepare_of_tracked tracked seq about uncounted with
        ⟨next, counts, more, form⟩ | ⟨dies, -⟩
      · rw [form] at given
        obtain ⟨rfl, rfl⟩ := Prod.mk.inj (Option.some.inj given)
        have most := next.toInt_le
        have greatest : Int32.maxValue.toInt = 2147483647 := by decide
        have place : next.toInt = first + (s.prepared + 1 : Nat) := by
          rw [more, reached]
          exact Int.add_assoc ..
        exact ⟨⟨_, sent, stillLive, ⟨next, counts, place⟩, told,
          others ⟨rfl, seq, _, next, rfl, about, rfl, place⟩⟩, full.imp_right fun spent => by omega⟩
      · rw [dies] at given
        cases given
  | @die i h c caller fails =>
      obtain ⟨seq, edit, rfl, about, uncounted⟩ := proper _ (List.mem_of_getElem? caller)
      obtain ⟨result, stillLive⟩ := live_prepare live ⟨seq, .changeFile edit⟩
      obtain ⟨rfl, given⟩ := Prod.mk.inj (fails.symm.trans result)
      rcases prepare_of_tracked tracked seq about uncounted with ⟨next, -, -, form⟩ | ⟨dies, last⟩
      · rw [form] at given
        cases given
      · rw [dies] at stillLive
        rw [dies]
        refine ⟨⟨w, sent, stillLive, ⟨v, tracked, reached⟩, told, others True.intro⟩, .inr ?_⟩
        rw [← reached, last]
  -- Nothing is asked of the order in which places are written.
  | @write i place channel h c written caller posted =>
      obtain ⟨rfl, seq, edit, u, rfl, about, version, value⟩ :=
        proper _ (List.mem_of_getElem? caller)
      obtain ⟨more, stillLive, tells⟩ := live_post_change live named seq about version
      rw [posted] at stillLive tells
      have joint : Notice.changes uri ((sent ++ more).filterMap Notice.ofJson?) =
          s.written.map (fun place => first + (place + 1 : Nat)) ++
            if written then [u.toInt] else [] := by
        rw [← told, ← tells, Notice.changes, Notice.changes, Notice.changes,
          List.filterMap_append, List.filterMap_append]
      refine ⟨⟨w, _, stillLive, ⟨v, tracked, reached⟩, ?_, others True.intro⟩, full⟩
      rw [joint, value]
      cases written <;> simp

/-- A file that has been opened once on a channel that takes messages. -/
theorem counted_start {h : Hub η} {w : Workspace} {sent : List Json} (awaits : h.Awaits n w sent)
    (seq : Int64) (opened : OpenedFile) :
    Counted n opened.file uri (opened.version.getD defaultOpenVersion).toInt
      (start (h.tell n ⟨seq, .openFile opened⟩).1) := by
  have live := live_send awaits.live (s := ⟨⟨seq, .openFile opened⟩, false⟩) rfl
  refine ⟨⟨_, _, live, ⟨_, ?_, (Int.add_zero _).symm⟩, ?_, nofun⟩, .inl rfl⟩
  · rw [Workspace.prepare_openFile, Workspace.version?_set, if_pos rfl]
  · rw [List.filterMap_append, awaits.silent, List.nil_append]
    have notice := Command.notice?_openFile seq
      { opened with
        version := some (opened.version.getD defaultOpenVersion)
        languageId := opened.languageId.or w.spec.languageId }
    change Notice.changes uri ((Command.wire? ⟨seq, .openFile _⟩).toList.filterMap _) = []
    rw [Command.notice?] at notice
    cases said : Command.wire? ⟨seq, .openFile _⟩ with
    | none => rfl
    | some m =>
        rw [said, Option.bind_some] at notice
        cases named : Uri.ofFileStrict? opened.file with
        | none => simp [Notice.changes, notice, named]
        | some document => simp [Notice.changes, notice, named, Notice.changeOf?]

/-- What may come of a rush of changes, after a file has been opened with a version or without. -/
def Reachable (n : Nat) (file : String) (h : Hub η) (s : Rush η) : Prop :=
  Relation.ReflTransGen (Step n file) (start h) s

variable {h : Hub η} {w : Workspace} {sent : List Json} {seq : Int64} {opened : OpenedFile}

theorem counted_of_reachable (awaits : h.Awaits n w sent)
    (named : Uri.ofFileStrict? opened.file = some uri)
    (reach : Reachable n opened.file (h.tell n ⟨seq, .openFile opened⟩).1 s) :
    Counted n opened.file uri (opened.version.getD defaultOpenVersion).toInt s := by
  induction reach with
  | refl => exact counted_start awaits seq opened
  | tail _ step ih => exact counted_step named ih step

/-- Changes are told with the versions of the order in which they were prepared. -/
theorem changes_eq (counted : Counted n file uri first s) :
    Notice.changes uri (s.hub.notices n) =
      s.written.map fun place => first + (place + 1 : Nat) := by
  obtain ⟨w, sent, live, -, told, -⟩ := counted.wire
  rw [live.notices_eq, told]

/-- No call has died just if there have been versions for all. -/
theorem died_eq_zero_iff (counted : Counted n file uri first s) :
    s.died = 0 ↔ first + (s.prepared + s.died : Nat) ≤ Int32.maxValue.toInt := by
  obtain ⟨w, sent, -, ⟨v, -, reached⟩, -⟩ := counted.wire
  have most := v.toInt_le
  have greatest : Int32.maxValue.toInt = 2147483647 := by decide
  have full := counted.full
  omega

/-- In a rush of changes, all of them come through with rising versions exactly if there are
versions for all that have come to be counted, and they are written in the order in which they were
prepared. -/
theorem rises_iff (awaits : h.Awaits n w sent)
    (named : Uri.ofFileStrict? opened.file = some uri)
    (reach : Reachable n opened.file (h.tell n ⟨seq, .openFile opened⟩).1 s) :
    s.Rises n uri ↔
      (opened.version.getD defaultOpenVersion).toInt + (s.prepared + s.died : Nat) ≤
          Int32.maxValue.toInt ∧
        s.written.Pairwise (· < ·) := by
  have counted := counted_of_reachable awaits named reach
  have rising : (Notice.changes uri (s.hub.notices n)).Pairwise (· < ·) ↔
      s.written.Pairwise (· < ·) := by
    rw [changes_eq counted, List.pairwise_map]
    apply List.Pairwise.iff
    intro place other
    omega
  rw [← died_eq_zero_iff counted, ← rising]
  exact ⟨fun rises => ⟨rises.whole, rises.rising⟩, fun both => ⟨both.1, both.2⟩⟩

/-- A file that is open without a version. -/
def blank : OpenedFile :=
  ⟨"/a", "", none, none⟩

/-- A change of the whole content of it. -/
def filling : Edit :=
  ⟨"/a", "new", none, none, none, none, none⟩

/-- Two changes that are prepared one after the other may be written in both orders. -/
theorem reachable_written {i j : Nat} (two : i = 0 ∧ j = 1 ∨ i = 1 ∧ j = 0) :
    ∃ s : Rush Unit, Reachable 0 blank.file (fresh.tell 0 ⟨1, .openFile blank⟩).1 s ∧
      s.prepared = 2 ∧ s.died = 0 ∧ s.written = [i, j] := by
  have came := Relation.ReflTransGen.single
    (@Step.ask _ 0 "/a" (start (fresh.tell 0 ⟨1, .openFile blank⟩).1) filling rfl rfl)
  have bothCame := came.tail (@Step.ask _ 0 "/a" _ filling rfl rfl)
  have numbered := bothCame.tail (@Step.number _ 0 "/a" _ 0 filling _ _ rfl rfl)
  have bothNumbered := numbered.tail (@Step.number _ 0 "/a" _ 1 filling _ _ rfl rfl)
  have prepared := bothNumbered.tail (@Step.prepare _ 0 "/a" _ 0 _ _ _ _ rfl rfl)
  have bothPrepared := prepared.tail (@Step.prepare _ 0 "/a" _ 1 _ _ _ _ rfl rfl)
  rcases two with ⟨rfl, rfl⟩ | ⟨rfl, rfl⟩
  · have first := bothPrepared.tail (@Step.write _ 0 "/a" _ 0 _ _ _ _ _ rfl rfl)
    have second := first.tail (@Step.write _ 0 "/a" _ 1 _ _ _ _ _ rfl rfl)
    exact ⟨_, second, rfl, rfl, rfl⟩
  · have second := bothPrepared.tail (@Step.write _ 0 "/a" _ 1 _ _ _ _ _ rfl rfl)
    have first := second.tail (@Step.write _ 0 "/a" _ 0 _ _ _ _ _ rfl rfl)
    exact ⟨_, first, rfl, rfl, rfl⟩

/-- Two changes that are written in the order in which they were prepared. -/
theorem rises_blank :
    ∃ s : Rush Unit, Reachable 0 blank.file (fresh.tell 0 ⟨1, .openFile blank⟩).1 s ∧
      s.written = [0, 1] ∧ s.Rises 0 "file:///a" := by
  obtain ⟨s, reach, two, none, order⟩ := reachable_written (.inl ⟨rfl, rfl⟩)
  have named : Uri.ofFileStrict? blank.file = some "file:///a" := by decide
  refine ⟨s, reach, order, (rises_iff awaits_fresh named reach).mpr ⟨?_, ?_⟩⟩
  · rw [two, none]
    decide
  · rw [order]
    decide

/-- A file that is open in the version before the greatest one. -/
def brimful : OpenedFile :=
  ⟨"/a", "old", none, some (Int32.maxValue - 1)⟩

/-- Of two changes of such a file only one comes through. -/
theorem reachable_died :
    ∃ s : Rush Unit, Reachable 0 brimful.file (fresh.tell 0 ⟨1, .openFile brimful⟩).1 s ∧
      s.died = 1 ∧ s.written = [0] := by
  have came := Relation.ReflTransGen.single
    (@Step.ask _ 0 "/a" (start (fresh.tell 0 ⟨1, .openFile brimful⟩).1) filling rfl rfl)
  have numbered := came.tail (@Step.number _ 0 "/a" _ 0 filling _ _ rfl rfl)
  have prepared := numbered.tail (@Step.prepare _ 0 "/a" _ 0 _ _ _ _ rfl rfl)
  have written := prepared.tail (@Step.write _ 0 "/a" _ 0 _ _ _ _ _ rfl rfl)
  have bothCame := written.tail (@Step.ask _ 0 "/a" _ filling rfl rfl)
  have bothNumbered := bothCame.tail (@Step.number _ 0 "/a" _ 1 filling _ _ rfl rfl)
  have died := bothNumbered.tail (@Step.die _ 0 "/a" _ 1 _ _ rfl rfl)
  exact ⟨_, died, rfl, rfl⟩

/-- Two changes of which the one that was prepared later is written first, and a change for which
there is no version. -/
theorem not_rises :
    (∃ s : Rush Unit, Reachable 0 blank.file (fresh.tell 0 ⟨1, .openFile blank⟩).1 s ∧
      Notice.changes "file:///a" (s.hub.notices 0) = [2, 1] ∧ ¬ s.Rises 0 "file:///a") ∧
    ∃ s : Rush Unit, Reachable 0 brimful.file (fresh.tell 0 ⟨1, .openFile brimful⟩).1 s ∧
      Notice.changes "file:///a" (s.hub.notices 0) = [2147483647] ∧ s.died = 1 ∧
      ¬ s.Rises 0 "file:///a" := by
  have named : Uri.ofFileStrict? "/a" = some "file:///a" := by decide
  constructor
  · obtain ⟨s, reach, -, -, order⟩ := reachable_written (.inr ⟨rfl, rfl⟩)
    have counted := counted_of_reachable awaits_fresh named reach
    have told : Notice.changes "file:///a" (s.hub.notices 0) = [2, 1] := by
      rw [changes_eq counted, order]
      decide
    refine ⟨s, reach, told, fun rises => ?_⟩
    have rising := rises.rising
    rw [told] at rising
    revert rising
    decide
  · obtain ⟨s, reach, died, order⟩ := reachable_died
    have counted := counted_of_reachable awaits_fresh named reach
    refine ⟨s, reach, ?_, died, fun rises => ?_⟩
    · rw [changes_eq counted, order]
      decide
    · cases died.symm.trans rises.whole

end Hub.Rush

end EditorBridge
