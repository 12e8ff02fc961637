import EditorBridge.Proofs.Console.Drain
import EditorBridge.Proofs.Console.Driver
import EditorBridge.Rehearsal.Console

/-!
# Performances as sessions

A console in a rehearsal is a session too. Whatever the practice servers do, the hub hears of it as
arrivals, so everything in a performance is a run of the session of its console, and what holds of
sessions holds of performances.
-/

namespace EditorBridge

open Console (Session Task)

namespace Rehearsal

variable {r r' r'' : Rehearsal Unit}

/-- Whether all that has happened to the hub are arrivals. -/
def Hears (r r' : Rehearsal Unit) : Prop :=
  ∀ (c : Console) (input : List String) (task : Task),
    Session.Run ⟨r.hub, c, input, task⟩ ⟨r'.hub, c, input, task⟩

theorem Hears.refl (r : Rehearsal Unit) : r.Hears r :=
  fun _ _ _ => .refl

theorem Hears.trans (first : r.Hears r') (second : r'.Hears r'') : r.Hears r'' :=
  fun c input task => (first c input task).trans (second c input task)

theorem hears_arrive (n : Nat) (a : Channel.Arrival) (hub : r'.hub = r.hub.arrive n a) :
    r.Hears r' := by
  intro c input task
  rw [hub]
  exact .single (Session.Step.arrived n a)

theorem hears_foldl {α : Type} {f : Rehearsal Unit → α → Rehearsal Unit}
    (each : ∀ r a, Hears r (f r a)) (items : List α) (r : Rehearsal Unit) :
    r.Hears (items.foldl f r) := by
  induction items generalizing r with
  | nil => exact .refl r
  | cons item items ih => exact (each r item).trans (ih (f r item))

theorem hears_remove (r : Rehearsal Unit) (n : Nat) : r.Hears (r.remove n) :=
  hears_arrive n .ended rfl

theorem hears_perform (n : Nat) (r : Rehearsal Unit) (act : Practice.Act) :
    r.Hears (perform n r act) := by
  cases act with
  | write message => exact hears_arrive n (.frame message) rfl
  | later delay message => exact .refl r
  | exit code => exact hears_remove r n

theorem hears_hand (n : Nat) (r : Rehearsal Unit) (message : Json) :
    r.Hears (hand n r message) := by
  rw [hand]
  cases r.peers[n]? with
  | none => exact .refl r
  | some peer =>
      dsimp only
      split
      · refine Hears.trans ?_ (hears_foldl (hears_perform n) _ _)
        exact Hears.refl r
      · exact .refl r

theorem hears_turn (r : Rehearsal Unit) (n : Nat) : r.Hears (r.turn n) := by
  rw [turn]
  split
  · exact hears_remove r n
  · exact hears_foldl (hears_hand n) _ r

/-- To let everything happen that takes no time is to let messages arrive. -/
theorem hears_settle (r : Rehearsal Unit) : r.Hears r.settle := by
  have rounds : ∀ (count : Nat) (r : Rehearsal Unit), r.Hears (count.repeat round r) := by
    intro count
    induction count with
    | zero => exact Hears.refl
    | succ count ih => exact fun r => (ih r).trans (hears_foldl hears_turn _ _)
  exact rounds roundLimit r.seat

theorem hears_step (r : Rehearsal Unit) : r.Hears r.step := by
  rw [step]
  cases letters : r.letters with
  | nil => exact .refl r
  | cons letter rest =>
      let heard : Rehearsal Unit :=
        { r with
          now := max r.now letter.due
          letters := rest
          hub := r.hub.arrive letter.channel (.frame letter.message) }
      have arrived : r.Hears heard := hears_arrive letter.channel (.frame letter.message) rfl
      exact arrived.trans (hears_settle heard)

end Rehearsal

namespace Performance

variable {p p' : Performance} {input rest : List String} {task task' : Task}

/-- The session of a performance, with the lines that are still to come. -/
def session (p : Performance) (input : List String) (task : Task) : Session :=
  ⟨p.rehearsal.hub, p.console, input, task⟩

/-- A performance begins as the session of a bridge that has just been set up. -/
theorem session_start (processId timeout : Nat) (routes : Routes) (isPlayable : Launch → Bool)
    (root : String) (lines : List String) :
    (start (.start (Console.hub processId timeout routes) isPlayable) root).session lines .reading =
      Session.start processId timeout routes root lines :=
  rfl

theorem hasDied_settle (p : Performance) (hub : Hub Unit) (console : Console) :
    (p.settle hub console).hasDied = p.hasDied := by
  rw [settle]

/-- What is done with the hub and the console may be followed by all that takes no time. -/
theorem run_settle {hub : Hub Unit} {console : Console} (guarded : (p.session input task).Guarded)
    (run : Session.Run (p.session input task) ⟨hub, console, rest, task'⟩) :
    Session.Run (p.session input task) ((p.settle hub console).session rest task') := by
  have settled := run.trans
    (Rehearsal.hears_settle { p.rehearsal with hub } console rest task')
  have heard := (Session.guarded_run guarded settled).heard
  rw [session, settle]
  generalize { p.rehearsal with hub }.settle = rehearsal at settled heard ⊢
  exact settled.trans (Session.run_collect heard)

theorem run_act (deed : Hub Unit → Console → Hub Unit × Console)
    (guarded : (p.session input task).Guarded)
    (run : Session.Run (p.session input task)
      ⟨(deed p.rehearsal.hub p.console).1, (deed p.rehearsal.hub p.console).2, rest, task'⟩) :
    Session.Run (p.session input task) ((p.act deed).session rest task') :=
  run_settle guarded run

/-- To take a line is a run that takes the line, at the end of which the bridge may have died. -/
theorem run_take {line : String} (alive : p.hasDied = false)
    (guarded : (p.session (line :: rest) .reading).Guarded) :
    (p.take line).hasDied = false ∧
        Session.Run (p.session (line :: rest) .reading) ((p.take line).session rest .reading) ∨
      (p.take line).hasDied = true ∧ ∃ command,
        Session.Run (p.session (line :: rest) .reading)
          ((p.take line).session rest (.dead command)) := by
  have comes : Session.Comes (p.session (line :: rest) .reading) p.console rest _ :=
    Session.comes_take p.rehearsal.launch p.rehearsal.now line rest
  rw [take, if_neg (by rw [alive]; exact Bool.false_ne_true)]
  rcases done : Console.take p.rehearsal.launch p.rehearsal.now line p.rehearsal.hub p.console with
    ⟨hub, _ | console⟩ <;> rw [done] at comes
  · exact .inr ⟨rfl, comes⟩
  · exact .inl ⟨(hasDied_settle p hub console).trans alive, run_settle guarded comes⟩

/-- The clock comes to a late answer or to a deadline. -/
theorem eq_act_of_step? (next : p.step? = some p') :
    (p' = act { p with rehearsal := p.rehearsal.step } fun hub console => (hub, console)) ∨
      ∃ deadline, p' = act
        { p with rehearsal := { p.rehearsal with now := max p.rehearsal.now deadline } }
        (Console.expire deadline) := by
  rw [step?] at next
  dsimp only at next
  split at next
  · cases next
  split at next
  · cases next
  · exact .inl (Option.some.inj next).symm
  · exact .inr ⟨_, (Option.some.inj next).symm⟩
  · obtain rfl := Option.some.inj next
    split
    · exact .inl rfl
    · exact .inr ⟨_, rfl⟩

theorem run_step? (guarded : (p.session input task).Guarded) (next : p.step? = some p') :
    Session.Run (p.session input task) (p'.session input task) := by
  rcases eq_act_of_step? next with rfl | ⟨deadline, rfl⟩
  · have heard := Rehearsal.hears_step p.rehearsal p.console input task
    have guarded' := Session.guarded_run guarded heard
    exact heard.trans (run_act (p := { p with rehearsal := p.rehearsal.step }) _ guarded' .refl)
  · have run : Session.Run (p.session input task) _ := Session.run_expire deadline
    exact run_act (p := { p with rehearsal := { p.rehearsal with
      now := max p.rehearsal.now deadline } }) _ guarded run

theorem run_waitFor (isSo : Performance → Bool) (bound : Nat)
    (guarded : (p.session input task).Guarded) :
    Session.Run (p.session input task) ((waitFor isSo bound p).session input task) := by
  induction bound generalizing p with
  | zero => exact .refl
  | succ bound ih =>
      rw [waitFor]
      split
      · exact .refl
      · cases next : p.step? with
        | none => exact .refl
        | some p' =>
            have stepped := run_step? guarded next
            exact stepped.trans (ih (Session.guarded_run guarded stepped))

/-- To let the clock go on takes no line. -/
theorem run_advance (time : Nat) (guarded : (p.session input task).Guarded) :
    Session.Run (p.session input task) ((p.advance time).session input task) :=
  run_waitFor _ _ guarded

/-- To wait for lines of the console takes no line of the editor. -/
theorem run_read (count : Nat) (guarded : (p.session input task).Guarded) :
    Session.Run (p.session input task) ((p.read count).1.session input task) :=
  run_waitFor _ _ guarded

/-- The performance when the last answers have been waited for. -/
def patient (p : Performance) : Performance :=
  waitFor (fun p => p.console.inquiries.isEmpty) p.bound p

theorem hasDied_step? (next : p.step? = some p') : p'.hasDied = p.hasDied := by
  rcases eq_act_of_step? next with rfl | ⟨deadline, rfl⟩
  · rw [act, hasDied_settle]
  · rw [act, hasDied_settle]

/-- Nothing dies while time goes on. -/
theorem hasDied_waitFor (isSo : Performance → Bool) (bound : Nat) (p : Performance) :
    (waitFor isSo bound p).hasDied = p.hasDied := by
  induction bound generalizing p with
  | zero => rfl
  | succ bound ih =>
      rw [waitFor]
      split
      · rfl
      · cases next : p.step? with
        | none => rfl
        | some p' => exact (ih p').trans (hasDied_step? next)

theorem session_finish (alive : p.hasDied = false) : p.finish.1.session input task =
    (p.patient.act fun hub console => (hub.stopAll, console)).session input task := by
  have still : p.patient.hasDied = false := (hasDied_waitFor _ _ p).trans alive
  rw [patient] at still
  simp only [finish, session, patient, still, Bool.false_eq_true, if_false]

/-- When a performance is over and nobody waits for an answer any more, the editor has its
answers. -/
theorem answers_finish {lines : List String} (alive : p.hasDied = false)
    (sound : (p.session [] .reading).Sound lines) (answered : p.patient.console.inquiries = []) :
    (p.finish.1.session [] .closed).Answers lines := by
  have waited : Session.Run (p.session [] .reading) (p.patient.session [] .reading) :=
    run_waitFor _ _ sound.guarded
  have guarded := Session.guarded_run sound.guarded waited
  have closed : Session.Step (p.patient.session [] .reading) _ := .closed rfl rfl answered
  have stopped := run_act (fun hub console => (hub.stopAll, console)) guarded (.single closed)
  rw [session_finish alive]
  exact (Session.sound_run sound (waited.trans stopped)).answers rfl

end Performance

end EditorBridge
