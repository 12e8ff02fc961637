import EditorBridge.Proofs.Hub.Hiring

/-!
# Whose hands servers are in

The servers that raise their events on one set of subscriptions are each in somebody's hands, or
they have been stopped (`Books`). Who starts a server gets it into its hands, and who stops one has
it off them. What others do with channels changes nothing about that.
-/

namespace EditorBridge

namespace Channel

theorem noted_write (c : Channel) (message : Json) : (c.write message).1.noted = c.noted := by
  unfold write
  cases c.outlet.write message
  rfl

theorem noted_greet (c : Channel) (processId : Nat) (root : String) (ticket : Nat) :
    (c.greet processId root ticket).1.noted = c.noted :=
  noted_write (c.order (.awaitHandshake ticket)).1 _

end Channel

namespace Hub

variable {η : Type} {h h' : Hub η} {c n board : Nat} {w : Workspace}
  {launch : Launch → Option Channel.Outlet} {spec : ServerSpec} {root : String}
  {result : Option Nat}

/-! ### Who is stopped by what -/

/-- The channels whose servers have been stopped. -/
def halted (h : Hub η) : List Nat :=
  (List.range h.links.length).filter h.isStopped

theorem mem_halted : c ∈ h.halted ↔ h.isStopped c = true := by
  rw [halted, List.mem_filter, List.mem_range]
  exact and_iff_right_of_imp lt_of_isStopped

theorem isStopped_of_stopChannel? {old : Option Nat}
    (gone : (h.stopChannel? old).isStopped c = true) : h.isStopped c = true ∨ old = some c := by
  cases old with
  | none => exact .inl gone
  | some n =>
      by_cases here : n = c
      · exact .inr (congrArg some here)
      · rw [stopChannel?, stopChannel, isStopped, channel?_onChannel_of_ne here] at gone
        exact .inl gone

theorem isStopped_stopChannel? {old : Option Nat} (held : c ∈ old) (there : c < h.links.length) :
    (h.stopChannel? old).isStopped c = true := by
  obtain rfl := Option.mem_def.mp held
  exact (recruits_stopChannel h c).2 there

theorem isStopped_of_leave (found : h.workspace? n = some w)
    (gone : (h.leave n).isStopped c = true) : h.isStopped c = true ∨ c = w.primary := by
  by_cases here : w.primary = c
  · exact .inr here.symm
  · rw [leave, found] at gone
    dsimp only at gone
    rw [shutdownChannel, isStopped, channel?_onChannel_of_ne here] at gone
    exact .inl gone

theorem isStopped_hire (h : Hub η) (spec : ServerSpec) (root : String) (board : Nat)
    (outlet : Channel.Outlet) :
    (h.hire spec root board outlet).1.isStopped h.links.length = false := by
  rw [hire, isStopped, channel?_onChannel, if_pos rfl, channel?_extend, if_pos rfl]
  change Channel.isStopped ((Channel.start outlet).greet h.processId root h.nextTicket).1 = false
  rw [Channel.isStopped, Channel.noted_greet]
  rfl

/-- A start stops nobody but a server that it does not give. -/
theorem isStopped_of_startChannel
    (done : h.startChannel launch spec root board = (h', result))
    (gone : h'.isStopped c = true) :
    h.isStopped c = true ∨ h.links.length ≤ c ∧ c ∉ result := by
  by_cases old : c < h.links.length
  · rw [isStopped, channel?_startChannel done old] at gone
    exact .inl gone
  · refine .inr ⟨Nat.le_of_not_lt old, fun given => ?_⟩
    obtain rfl := Option.mem_def.mp given
    obtain ⟨rfl, -⟩ := startChannel_some done
    have fresh := isStopped_hire h spec root board
    rw [startChannel_eq] at done
    cases launched : launch ⟨h.links.length, spec, root⟩ with
    | none => rw [launched] at done; cases done
    | some outlet =>
        have unstopped := fresh outlet
        rw [launched] at done
        dsimp only at done
        rcases form : h.hire spec root board outlet with ⟨h₁, _ | _⟩
        · rw [form] at done
          cases done
        · rw [form] at done unstopped
          obtain ⟨rfl, -⟩ := Prod.mk.inj done
          rw [unstopped] at gone
          cases gone

/-! ### The books -/

/-- What is known of the servers of a set of subscriptions, when some are in hands and some have
been stopped. Nobody is in two hands (`once`). Those in hands belong here (`known`). None of them
has been stopped (`kept`). Everybody is in hands or has been stopped (`all`). Whoever is stopped has
been stopped (`seen`). Only servers that there are have been stopped (`within`). Whoever has been
stopped is gone (`gone`). -/
structure Books (h : Hub η) (board : Nat) (held stopped : List Nat) : Prop where
  once : held.Nodup
  known : ∀ c ∈ held, h.boardOf? c = some board
  kept : ∀ c ∈ held, c ∉ stopped
  all : ∀ c, h.boardOf? c = some board → c ∈ held ∨ c ∈ stopped
  seen : ∀ c, h.boardOf? c = some board → h.isStopped c = true → c ∈ stopped
  within : ∀ c ∈ stopped, c < h.links.length
  gone : ∀ c ∈ stopped, h.boardOf? c = some board → h.isAlive c = false

variable {held held' stopped : List Nat}

/-- It does not matter in what order those in hands are named. -/
theorem Books.perm (books : h.Books board held stopped) (perm : held.Perm held') :
    h.Books board held' stopped :=
  { books with
    once := perm.nodup_iff.mp books.once
    known := fun c inside => books.known c (perm.mem_iff.mpr inside)
    kept := fun c inside => books.kept c (perm.mem_iff.mpr inside)
    all := fun c belongs => (books.all c belongs).imp_left perm.mem_iff.mp }

/-- The books are about channels only. -/
theorem Books.links (books : h.Books board held stopped) (same : h'.links = h.links) :
    h'.Books board held stopped := by
  have boards : ∀ c, h'.boardOf? c = h.boardOf? c := fun c => by
    rw [boardOf?, boardOf?, stamps, stamps, same]
  have stops : ∀ c, h'.isStopped c = h.isStopped c := fun c => by
    rw [isStopped, isStopped, channel?, channel?, same]
  refine ⟨books.once, ?_, books.kept, ?_, ?_, same ▸ books.within, ?_⟩
  · exact fun c inside => (boards c).trans (books.known c inside)
  · exact fun c belongs => books.all c ((boards c).symm.trans belongs)
  · exact fun c belongs gone =>
      books.seen c ((boards c).symm.trans belongs) ((stops c).symm.trans gone)
  · exact fun c inside belongs =>
      (isAlive_of_links same c).trans (books.gone c inside ((boards c).symm.trans belongs))

/-- Those that are stopped now may be counted again. -/
theorem Books.recount (books : h.Books board held stopped) :
    h.Books board held (stopped ++ h.halted) := by
  have counted : ∀ c ∈ stopped ++ h.halted, h.boardOf? c = some board → c ∈ stopped := by
    intro c inside belongs
    rcases List.mem_append.mp inside with old | new
    · exact old
    · exact books.seen c belongs (mem_halted.mp new)
  refine ⟨books.once, books.known, ?_, ?_, ?_, ?_, ?_⟩
  · exact fun c inside stopped => books.kept c inside (counted c stopped (books.known c inside))
  · exact fun c belongs => (books.all c belongs).imp_right (List.mem_append_left _)
  · exact fun c _ gone => List.mem_append_right _ (mem_halted.mpr gone)
  · intro c inside
    rcases List.mem_append.mp inside with old | new
    · exact books.within c old
    · exact lt_of_isStopped (mem_halted.mp new)
  · exact fun c inside belongs => books.gone c (counted c inside belongs) belongs

/-- Work on channels that stops those that are let go, and nobody else that is in hands. -/
theorem Books.works (books : h.Books board held stopped) (works : h.Works h')
    (fewer : held'.Sublist held)
    (stops : ∀ c ∈ held, c ∉ held' → h'.isStopped c = true)
    (only : ∀ c, h'.isStopped c = true → h.isStopped c = true ∨ c ∉ held' ∧ h'.isAlive c = false) :
    h'.Books board held' (stopped ++ h'.halted) := by
  have boards : ∀ c, h'.boardOf? c = h.boardOf? c := fun c => by
    rw [boardOf?, boardOf?, works.stamps]
  have still : ∀ c, h.isAlive c = false → h'.isAlive c = false := by
    intro c gone
    exact Bool.eq_false_iff.mpr fun there => by rw [works.alive c there] at gone; cases gone
  refine ⟨books.once.sublist fewer, ?_, ?_, ?_, ?_, ?_, ?_⟩
  · exact fun c inside => (boards c).trans (books.known c (fewer.subset inside))
  · intro c inside counted
    have old := books.kept c (fewer.subset inside)
    rcases List.mem_append.mp counted with before | now
    · exact old before
    · rcases only c (mem_halted.mp now) with before | ⟨letGo, -⟩
      · exact old (books.seen c (books.known c (fewer.subset inside)) before)
      · exact letGo inside
  · intro c belongs
    rcases books.all c ((boards c).symm.trans belongs) with inside | counted
    · by_cases keeps : c ∈ held'
      · exact .inl keeps
      · exact .inr (List.mem_append_right _ (mem_halted.mpr (stops c inside keeps)))
    · exact .inr (List.mem_append_left _ counted)
  · exact fun c _ gone => List.mem_append_right _ (mem_halted.mpr gone)
  · intro c counted
    rcases List.mem_append.mp counted with before | now
    · exact works.length_links ▸ books.within c before
    · exact lt_of_isStopped (mem_halted.mp now)
  · intro c counted belongs
    have belonged := (boards c).symm.trans belongs
    rcases List.mem_append.mp counted with before | now
    · exact still c (books.gone c before belonged)
    · rcases only c (mem_halted.mp now) with before | ⟨-, gone⟩
      · exact still c (books.gone c (books.seen c belonged before) belonged)
      · exact gone

/-- Who stops the server in its hands has it off them. -/
theorem Books.dismiss {old : Option Nat} (books : h.Books board (old.toList ++ held) stopped) :
    (h.stopChannel? old).Books board held (stopped ++ (h.stopChannel? old).halted) := by
  have apart : ∀ c ∈ old, c ∉ held := fun c inOld inside =>
    (List.nodup_append.mp books.once).2.2 c (Option.mem_toList.mpr inOld) c inside rfl
  refine books.works (works_stopChannel? h old) (List.sublist_append_right _ _) ?_ ?_
  · intro c inside letGo
    have taken := Option.mem_toList.mp ((List.mem_append.mp inside).resolve_right letGo)
    exact isStopped_stopChannel? taken (lt_of_boardOf? (books.known c inside))
  · intro c gone
    refine (isStopped_of_stopChannel? gone).imp_right fun taken => ⟨apart c taken, ?_⟩
    rw [isAlive_stopChannel?, taken, bne_self_eq_false, Bool.and_false]

/-- Who takes leave of the first server of a workspace has it off the hands, where it may have been
before. -/
theorem Books.leave {lead : List Nat} (books : h.Books board (lead ++ held) stopped)
    (found : h.workspace? n = some w)
    (leads : lead = [w.primary] ∨ lead = [] ∧ w.primary ∈ stopped) :
    (h.leave n).Books board held (stopped ++ (h.leave n).halted) ∧
      (h.leave n).isStopped w.primary = true := by
  have form : h.leave n = h.shutdownChannel w.primary := by rw [Hub.leave, found]
  have there : w.primary < h.links.length := by
    rcases leads with rfl | ⟨-, counted⟩
    · exact lt_of_boardOf? (books.known _ List.mem_cons_self)
    · exact books.within _ counted
  have letGo : w.primary ∉ held := by
    rcases leads with rfl | ⟨-, counted⟩
    · exact (List.nodup_cons.mp books.once).1
    · exact fun inside => books.kept _ (List.mem_append_right _ inside) counted
  have stopped : (h.leave n).isStopped w.primary = true :=
    form ▸ (recruits_shutdownChannel h w.primary).2 there
  refine ⟨books.works (works_leave h n) (List.sublist_append_right _ _) ?_ ?_, stopped⟩
  · intro c inside out
    rcases leads with rfl | ⟨rfl, -⟩
    · rwa [List.mem_singleton.mp ((List.mem_append.mp inside).resolve_right out)]
    · exact absurd inside out
  · intro c gone
    refine (isStopped_of_leave found gone).imp_right ?_
    rintro rfl
    exact ⟨letGo, by rw [form, isAlive_shutdownChannel, bne_self_eq_false, Bool.and_false]⟩

/-- Who starts a server has it in its hands. -/
theorem Books.hired (books : h.Books board held stopped)
    (done : h.startChannel launch spec root board = (h', some n)) :
    h'.Books board (n :: held) stopped := by
  have raises := boardOf?_startChannel done
  have stops (c : Nat) := @isStopped_of_startChannel η h h' c board launch spec root _ done
  obtain ⟨rfl, hires, alive⟩ := startChannel_some done
  have ages := hires.ages fun c old there => by
    rw [alive, if_neg (Nat.ne_of_gt old)] at there
    exact there
  have count : h'.links.length = h.links.length + 1 := hires.length_links
  have old : ∀ c ∈ held, c < h.links.length := fun c inside => lt_of_boardOf? (books.known c inside)
  have only : ∀ c, h'.boardOf? c = some board → h.boardOf? c = some board ∨ c = h.links.length := by
    intro c belongs
    have within := lt_of_boardOf? belongs
    have now := hires.boardOf? (fun _ new => congrArg Prod.snd (List.mem_singleton.mp new)) belongs
    exact now.imp_right fun ⟨_, late⟩ => by omega
  refine ⟨?_, ?_, ?_, ?_, ?_, ?_, ?_⟩
  · exact List.nodup_cons.mpr ⟨fun inside => Nat.lt_irrefl _ (old _ inside), books.once⟩
  · intro c inside
    rcases List.mem_cons.mp inside with rfl | before
    · exact raises
    · exact ages.boardOf? (books.known c before)
  · intro c inside counted
    rcases List.mem_cons.mp inside with rfl | before
    · exact Nat.lt_irrefl _ (books.within _ counted)
    · exact books.kept c before counted
  · intro c belongs
    rcases only c belongs with before | rfl
    · exact (books.all c before).imp_left (List.mem_cons_of_mem _)
    · exact .inl List.mem_cons_self
  · intro c belongs gone
    rcases stops c gone with early | ⟨late, other⟩
    · rcases only c belongs with before | rfl
      · exact books.seen c before early
      · exact absurd (lt_of_isStopped early) (Nat.lt_irrefl _)
    · rcases only c belongs with before | rfl
      · exact absurd (lt_of_boardOf? before) (Nat.not_lt_of_le late)
      · exact absurd rfl other
  · intro c counted
    exact count ▸ Nat.lt_succ_of_lt (books.within c counted)
  · intro c counted belongs
    have early := books.within c counted
    rcases only c belongs with before | rfl
    · rw [alive, if_neg (Nat.ne_of_gt early), books.gone c counted before]
    · exact absurd early (Nat.lt_irrefl _)

/-- Who fails to start a server has none in its hands. -/
theorem Books.unhired (books : h.Books board held stopped)
    (failed : h.startChannel launch spec root board = (h', none)) :
    h'.Books board held (stopped ++ h'.halted) := by
  have new := (recruits_startChannel failed).new
  have stops (c : Nat) := @isStopped_of_startChannel η h h' c board launch spec root _ failed
  obtain ⟨⟨more, hires, alike⟩, alive⟩ := startChannel_none failed
  have boards : ∀ stamp ∈ more, stamp.2 = board := fun stamp new => (alike stamp new).2.2
  have ages := hires.ages fun c _ there => (alive c).symm.trans there
  refine ⟨books.once, ?_, ?_, ?_, ?_, ?_, ?_⟩
  · exact fun c inside => ages.boardOf? (books.known c inside)
  · intro c inside counted
    have known := books.known c inside
    rcases List.mem_append.mp counted with before | now
    · exact books.kept c inside before
    · rcases stops c (mem_halted.mp now) with early | ⟨late, -⟩
      · exact books.kept c inside (books.seen c known early)
      · exact Nat.not_lt_of_le late (lt_of_boardOf? known)
  · intro c belongs
    rcases hires.boardOf? boards belongs with before | ⟨-, late⟩
    · exact (books.all c before).imp_right (List.mem_append_left _)
    · have gone := (new c late (lt_of_boardOf? belongs)).resolve_left List.not_mem_nil
      exact .inr (List.mem_append_right _ (mem_halted.mpr gone))
  · exact fun c _ gone => List.mem_append_right _ (mem_halted.mpr gone)
  · intro c counted
    rcases List.mem_append.mp counted with before | now
    · rw [hires.length_links]
      exact Nat.lt_add_right _ (books.within c before)
    · exact lt_of_isStopped (mem_halted.mp now)
  · intro c counted belongs
    rw [alive]
    rcases hires.boardOf? boards belongs with before | ⟨-, late⟩
    · rcases List.mem_append.mp counted with early | now
      · exact books.gone c early before
      · rcases stops c (mem_halted.mp now) with early | ⟨late, -⟩
        · exact books.gone c (books.seen c before early) before
        · exact absurd (lt_of_boardOf? before) (Nat.not_lt_of_le late)
    · exact Bool.eq_false_iff.mpr fun there => Nat.not_lt_of_le late (lt_of_isAlive there)

/-- Who starts a server has it in its hands, if there is one. -/
theorem Books.hire (books : h.Books board held stopped)
    (done : h.startChannel launch spec root board = (h', result)) :
    h'.Books board (result.toList ++ held) (stopped ++ h'.halted) := by
  cases result with
  | none => exact books.unhired done
  | some n => exact (books.hired done).recount

/-- Both servers of a workspace that has just been started are in hands. -/
theorem Sound.books_startWorkspace {key : Workspace.Key} (sound : h.Sound)
    (started : h.startWorkspace launch key spec = (h', some n)) :
    ∃ primary worker,
      h'.workspace? n = some (.start key spec primary worker h.boards.length) ∧
        h'.Books h.boards.length [worker, primary] [] := by
  have nobody : h.openBoard.Books h.boards.length [] [] := by
    have unknown : ∀ c, h.openBoard.boardOf? c ≠ some h.boards.length := fun c belongs =>
      absurd (sound.opened c _ belongs) (Nat.lt_irrefl _)
    exact ⟨.nil, nofun, nofun, fun c belongs => absurd belongs (unknown c),
      fun c belongs => absurd belongs (unknown c), nofun, nofun⟩
  rw [startWorkspace] at started
  rcases first : h.openBoard.startChannel launch spec key.root h.boards.length with ⟨h₁, _ | p⟩
  · rw [first] at started
    cases started
  · rw [first] at started
    dsimp only at started
    rcases second : h₁.startChannel launch spec key.root h.boards.length with ⟨h₂, _ | w⟩
    · rw [second] at started
      cases started
    · rw [second] at started
      obtain ⟨rfl, given⟩ := Prod.mk.inj started
      obtain rfl := Option.some.inj given
      exact ⟨p, w, List.getElem?_concat_length, ((nobody.hired first).hired second).links rfl⟩

end Hub

end EditorBridge
