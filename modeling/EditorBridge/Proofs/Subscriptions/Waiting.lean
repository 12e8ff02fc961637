import EditorBridge.Proofs.Subscriptions.History
import Mathlib.Data.Nat.Find
import Mathlib.Order.Nat

/-!
# What waits unheard

An event whose dispatch finds nobody who listens is unheard, and waits until it is fetched or until
too many others wait behind it. This is told from a history alone: `unheard` are the dispatches that
found nobody, `waiting` those of them that wait. What waits are always the last ones that were
unheard (`waiting_suffix`), and one that waits leaves from the front and in one of two ways
(`leaves`). So what is lost was crowded out (`CrowdsOut`), and what was crowded out is lost
(`crowdsOut_iff_lost`).
-/

namespace EditorBridge.Subscriptions

variable {η : Type}

/-- The event whose dispatch began at a place of a history and found nobody who listens. -/
def unheard? (history : List (Deed η)) (place : Nat) : Option Event :=
  match history[place]? with
  | some (.began e) => if (audience e.name (history.take place)).isEmpty then some e else none
  | _ => none

/-- The dispatches that began among the first deeds of a history and found nobody who listens: their
places and their events. -/
def unheard (history : List (Deed η)) (deeds : Nat) : List (Nat × Event) :=
  (List.range deeds).filterMap fun place => (unheard? history place).map (place, ·)

/-- Which of them wait: a new one goes to the end, at the cost of the first one if 256 wait already,
and the first one is fetched. -/
def waiting (history : List (Deed η)) : Nat → List (Nat × Event)
  | 0 => []
  | place + 1 =>
      let before := waiting history place
      match unheard? history place, history[place]? with
      | some e, _ =>
          (if before.length = backlogLimit then before.drop 1 else before) ++ [(place, e)]
      | none, some (.fetched _) => before.drop 1
      | none, _ => before

variable {history : List (Deed η)} {place : Nat} {u : Nat × Event}

theorem unheard?_eq_some_iff {e : Event} : unheard? history place = some e ↔
    history[place]? = some (.began e) ∧ audience e.name (history.take place) = [] := by
  rw [unheard?]
  split
  · next d found =>
      cases listens : audience d.name (history.take place) with
      | nil =>
          simp only [List.isEmpty_nil, if_true, found, Option.some.injEq, Deed.began.injEq]
          exact ⟨fun same => ⟨same, same ▸ listens⟩, And.left⟩
      | cons first others =>
          simp only [List.isEmpty_cons, Bool.false_eq_true, if_false, reduceCtorEq, found,
            Option.some.injEq, Deed.began.injEq, false_iff]
          rintro ⟨rfl, nobody⟩
          rw [listens] at nobody
          cases nobody
  · next other =>
      constructor
      · intro found
        cases found
      · exact fun found => absurd found.1 (other e)

theorem unheard_succ (history : List (Deed η)) (place : Nat) : unheard history (place + 1) =
    unheard history place ++ ((unheard? history place).map (place, ·)).toList := by
  rw [unheard, List.range_succ, List.filterMap_append, ← unheard]
  cases found : unheard? history place <;> simp [found]

theorem mem_unheard {deeds : Nat} :
    u ∈ unheard history deeds ↔ u.1 < deeds ∧ unheard? history u.1 = some u.2 := by
  simp only [unheard, List.mem_filterMap, List.mem_range, Option.map_eq_some_iff]
  constructor
  · rintro ⟨n, inside, e, found, rfl⟩
    exact ⟨inside, found⟩
  · rintro ⟨inside, found⟩
    exact ⟨u.1, inside, u.2, found, rfl⟩

/-- They stand in the order of their places. -/
theorem unheard_pairwise (history : List (Deed η)) (deeds : Nat) :
    (unheard history deeds).Pairwise (·.1 < ·.1) := by
  rw [unheard, List.pairwise_filterMap]
  refine List.pairwise_lt_range.imp ?_
  rintro n m less u named v followed
  obtain ⟨e, -, rfl⟩ := Option.map_eq_some_iff.mp named
  obtain ⟨d, -, rfl⟩ := Option.map_eq_some_iff.mp followed
  exact less

theorem fetched_of_unheard? {e : Event} {f : Option Event}
    (found : unheard? history place = some e) : history[place]? ≠ some (.fetched f) := by
  rw [(unheard?_eq_some_iff.mp found).1]
  exact nofun

/-! ### More deeds behind a history -/

theorem unheard?_append (inside : place < history.length) (more : List (Deed η)) :
    unheard? (history ++ more) place = unheard? history place := by
  rw [unheard?, unheard?, List.getElem?_append_left inside,
    List.take_append_of_le_length (Nat.le_of_lt inside)]

theorem waiting_append {deeds : Nat} (inside : deeds ≤ history.length) (more : List (Deed η)) :
    waiting (history ++ more) deeds = waiting history deeds := by
  induction deeds with
  | zero => rfl
  | succ place ih =>
      rw [waiting, waiting, unheard?_append inside, List.getElem?_append_left inside,
        ih (Nat.le_of_lt inside)]

/-! ### One more deed -/

theorem waiting_of_unheard {e : Event} (found : unheard? history place = some e) :
    waiting history (place + 1) =
      (if (waiting history place).length = backlogLimit then (waiting history place).drop 1
        else waiting history place) ++ [(place, e)] := by
  rw [waiting, found]

theorem waiting_of_fetched {f : Option Event} (found : history[place]? = some (.fetched f)) :
    waiting history (place + 1) = (waiting history place).drop 1 := by
  have heard : unheard? history place = none := by
    rw [Option.eq_none_iff_forall_ne_some]
    exact fun e unheard => fetched_of_unheard? unheard found
  rw [waiting, heard, found]

theorem waiting_of_other (heard : unheard? history place = none)
    (other : ∀ f, history[place]? ≠ some (.fetched f)) :
    waiting history (place + 1) = waiting history place := by
  rw [waiting, heard]
  split
  · next h => cases h
  · next h => exact absurd h (other _)
  · rfl

/-- A deed adds nothing but itself to what waits, or takes the first one. -/
theorem waiting_succ_cases (history : List (Deed η)) (place : Nat) :
    (∃ e, unheard? history place = some e ∧ waiting history (place + 1) =
      (if (waiting history place).length = backlogLimit then (waiting history place).drop 1
        else waiting history place) ++ [(place, e)]) ∨
    (∃ f, history[place]? = some (.fetched f) ∧
      waiting history (place + 1) = (waiting history place).drop 1) ∨
    unheard? history place = none ∧ waiting history (place + 1) = waiting history place := by
  cases heard : unheard? history place with
  | some e => exact .inl ⟨e, rfl, waiting_of_unheard heard⟩
  | none =>
      by_cases fetch : ∃ f, history[place]? = some (.fetched f)
      · obtain ⟨f, found⟩ := fetch
        exact .inr (.inl ⟨f, found, waiting_of_fetched found⟩)
      · exact .inr (.inr ⟨rfl, waiting_of_other heard (not_exists.mp fetch)⟩)

/-- The last ones that were unheard wait. -/
theorem waiting_suffix (history : List (Deed η)) (deeds : Nat) :
    waiting history deeds <:+ unheard history deeds := by
  induction deeds with
  | zero => exact List.suffix_refl _
  | succ place ih =>
      rw [unheard_succ]
      rcases waiting_succ_cases history place with
        ⟨e, found, form⟩ | ⟨f, found, form⟩ | ⟨none, form⟩
      · rw [form, found]
        refine List.suffix_append_self_iff.mpr ?_
        split
        · exact (List.drop_suffix 1 _).trans ih
        · exact ih
      · have heard : unheard? history place = none := by
          rw [Option.eq_none_iff_forall_ne_some]
          exact fun e unheard => fetched_of_unheard? unheard found
        rw [form, heard]
        simpa using (List.drop_suffix 1 _).trans ih
      · rw [form, none]
        simpa using ih

theorem length_waiting_le (history : List (Deed η)) (deeds : Nat) :
    (waiting history deeds).length ≤ backlogLimit := by
  induction deeds with
  | zero => exact Nat.zero_le _
  | succ place ih =>
      rcases waiting_succ_cases history place with ⟨e, -, form⟩ | ⟨f, -, form⟩ | ⟨-, form⟩
      · rw [form, List.length_append, List.length_singleton]
        split
        · next full =>
            rw [List.length_drop, full]
            exact Nat.le_of_eq rfl
        · next room => omega
      · rw [form, List.length_drop]
        omega
      · rw [form]
        exact ih

theorem waiting_pairwise (history : List (Deed η)) (deeds : Nat) :
    (waiting history deeds).Pairwise (·.1 < ·.1) :=
  (unheard_pairwise history deeds).sublist (waiting_suffix history deeds).sublist

theorem mem_waiting_succ (inside : u ∈ waiting history (place + 1)) :
    u ∈ waiting history place ∨ u.1 = place := by
  rcases waiting_succ_cases history place with ⟨e, -, form⟩ | ⟨f, -, form⟩ | ⟨-, form⟩
  · rw [form, List.mem_append, List.mem_singleton] at inside
    rcases inside with old | rfl
    · refine .inl ?_
      split at old
      · exact List.mem_of_mem_drop old
      · exact old
    · exact .inr rfl
  · rw [form] at inside
    exact .inl (List.mem_of_mem_drop inside)
  · rw [form] at inside
    exact .inl inside

/-- Those that wait from some moment on began after a place if those that wait at this moment
did. -/
theorem lt_of_mem_waiting {n k j : Nat} (later : k ≤ j) (bound : n < k)
    (all : ∀ u ∈ waiting history k, n < u.1) : ∀ u ∈ waiting history j, n < u.1 := by
  induction j, later using Nat.le_induction with
  | base => exact all
  | succ j le ih =>
      intro u inside
      rcases mem_waiting_succ inside with old | rfl
      · exact ih u old
      · omega

/-- What waits and does not wait any longer was the first one; either it was fetched, or 256 waited
when one more came. -/
theorem leaves (inside : u ∈ waiting history place) (gone : u ∉ waiting history (place + 1)) :
    (waiting history place).head? = some u ∧
      ((∃ f, history[place]? = some (.fetched f)) ∨
        (unheard? history place).isSome ∧ (waiting history place).length = backlogLimit) := by
  have first (dropped : u ∉ (waiting history place).drop 1) :
      (waiting history place).head? = some u := by
    cases form : waiting history place with
    | nil => rw [form] at inside; cases inside
    | cons head others =>
        rw [form] at inside dropped
        exact congrArg some ((List.mem_cons.mp inside).resolve_right dropped).symm
  rcases waiting_succ_cases history place with ⟨e, found, form⟩ | ⟨f, found, form⟩ | ⟨-, form⟩
  · rw [form, List.mem_append, not_or] at gone
    split at gone
    · next full => exact ⟨first gone.1, .inr ⟨by rw [found]; rfl, full⟩⟩
    · exact absurd inside gone.1
  · rw [form] at gone
    exact ⟨first gone, .inl ⟨f, found⟩⟩
  · exact absurd (form ▸ inside) gone

/-- What waits at some moment and not at a later one leaves in between. -/
theorem exists_leaving {first last : Nat} (inside : u ∈ waiting history first)
    (gone : u ∉ waiting history last) (later : first ≤ last) :
    ∃ place < last, first ≤ place ∧ (∀ n, first ≤ n → n ≤ place → u ∈ waiting history n) ∧
      u ∉ waiting history (place + 1) := by
  have ends : ∃ n, first ≤ n ∧ u ∉ waiting history n := ⟨last, later, gone⟩
  obtain ⟨beyond, left⟩ := Nat.find_spec ends
  have least := Nat.find_min' ends ⟨later, gone⟩
  have before (n : Nat) (from_ : first ≤ n) (less : n < Nat.find ends) : u ∈ waiting history n := by
    by_contra notThere
    exact Nat.find_min ends less ⟨from_, notThere⟩
  cases form : Nat.find ends with
  | zero =>
      rw [form] at beyond left
      exact absurd (Nat.le_zero.mp beyond ▸ inside) left
  | succ place =>
      rw [form] at beyond left least before
      refine ⟨place, least, ?_, fun n from_ le => before n from_ (Nat.lt_succ_of_le le), left⟩
      rcases Nat.lt_or_eq_of_le beyond with less | same
      · exact Nat.le_of_lt_succ less
      · exact absurd (same ▸ inside) left

/-- When 256 are unheard after one, it does not wait, and neither do those before it. -/
theorem lt_of_many {n k : Nat}
    (many : 256 ≤ ((unheard history k).filter (n < ·.1)).length) :
    ∀ u ∈ waiting history k, n < u.1 := by
  obtain ⟨front, split⟩ := waiting_suffix history k
  have ordered := unheard_pairwise history k
  have few := length_waiting_le history k
  rw [← split] at many ordered
  intro u inside
  by_contra notAfter
  -- All that is in front of `u` began before it, so less than 256 can have begun after `n`.
  have none : front.filter (n < ·.1) = [] := by
    rw [List.filter_eq_nil_iff]
    intro w before
    have less := (List.pairwise_append.mp ordered).2.2 w before u inside
    rw [decide_eq_true_eq]
    omega
  have fewer : ((waiting history k).filter (n < ·.1)).length < (waiting history k).length := by
    rw [List.length_filter_lt_length_iff_exists]
    exact ⟨u, inside, by simpa using notAfter⟩
  rw [List.filter_append, none, List.nil_append] at many
  have limit : backlogLimit = 256 := rfl
  omega

/-! ### What is fetched -/

/-- Whether every fetch of a history brought the first event that waited. -/
def FetchesFirst (history : List (Deed η)) : Prop :=
  ∀ place e, history[place]? = some (.fetched e) → e = (waiting history place).head?.map Prod.snd

/-- The dispatch that what is fetched at a place comes from. -/
def sourceOf (history : List (Deed η)) (place : Nat) : Nat :=
  ((waiting history place).head?.map Prod.fst).getD 0

/-- Whether the dispatch at a place crowds an earlier one out of those that wait: it is unheard, at
least 256 were unheard after the earlier one by then, and whatever was fetched between the two came
from before the earlier one, which therefore still waited. -/
structure CrowdsOut (history : List (Deed η)) (source : Nat → Nat) (earlier place : Nat) :
    Prop where
  after : earlier < place
  alone : (unheard? history place).isSome
  many : 256 ≤ ((unheard history (place + 1)).filter (earlier < ·.1)).length
  stays : ∀ f, earlier < f → f < place → ∀ e, history[f]? = some (.fetched e) →
    e.isSome ∧ source f < earlier

variable (right : FetchesFirst history)
include right

/-- What is fetched is the first one that waits. -/
theorem FetchesFirst.head {f : Nat} {e : Event} (found : history[f]? = some (.fetched (some e))) :
    (waiting history f).head? = some (sourceOf history f, e) := by
  obtain ⟨u, first, rfl⟩ := Option.map_eq_some_iff.mp (right f _ found).symm
  rw [sourceOf, first]
  rfl

theorem FetchesFirst.mem_unheard {f : Nat} {e : Event}
    (found : history[f]? = some (.fetched (some e))) :
    (sourceOf history f, e) ∈ unheard history f :=
  (waiting_suffix history f).subset (List.mem_of_mem_head? (right.head found))

/-- Behind a fetch only later ones wait. -/
theorem FetchesFirst.sourceOf_lt {f k : Nat} {e : Event}
    (found : history[f]? = some (.fetched (some e))) (later : f < k) :
    ∀ u ∈ waiting history k, sourceOf history f < u.1 := by
  have began := (Subscriptions.mem_unheard.mp (right.mem_unheard found)).1
  refine lt_of_mem_waiting later (Nat.lt_succ_of_lt began) fun u inside => ?_
  rw [waiting_of_fetched found] at inside
  have ordered := waiting_pairwise history f
  have first := right.head found
  cases form : waiting history f with
  | nil => rw [form] at first; cases first
  | cons head others =>
      rw [form] at first ordered inside
      obtain rfl := Option.some.inj first
      exact (List.pairwise_cons.mp ordered).1 u inside

theorem FetchesFirst.sourceOf_strictMono {f g : Nat} {d e : Event} (less : f < g)
    (first : history[f]? = some (.fetched (some d)))
    (second : history[g]? = some (.fetched (some e))) :
    sourceOf history f < sourceOf history g :=
  right.sourceOf_lt first less _ (List.mem_of_mem_head? (right.head second))

/-- One that leaves without being fetched is crowded out. -/
theorem FetchesFirst.crowdsOut {place : Nat} (stays : ∀ n, u.1 < n → n ≤ place →
      u ∈ waiting history n) (after : u.1 < place) (first : (waiting history place).head? = some u)
    (unheardThere : (unheard? history place).isSome)
    (full : (waiting history place).length = backlogLimit) :
    CrowdsOut history (sourceOf history) u.1 place := by
  refine ⟨after, unheardThere, ?_, ?_⟩
  · obtain ⟨e, found⟩ := Option.isSome_iff_exists.mp unheardThere
    have ordered := waiting_pairwise history (place + 1)
    have form := waiting_of_unheard found
    rw [if_pos full] at form
    have later : ∀ w ∈ waiting history (place + 1), decide (u.1 < w.1) = true := by
      intro w inside
      rw [decide_eq_true_eq]
      rw [form, List.mem_append, List.mem_singleton] at inside
      rcases inside with old | rfl
      · have ordered := waiting_pairwise history place
        cases line : waiting history place with
        | nil => rw [line] at first; cases first
        | cons head others =>
            rw [line] at first ordered old
            obtain rfl := Option.some.inj first
            exact (List.pairwise_cons.mp ordered).1 w old
      · exact after
    have part := (waiting_suffix history (place + 1)).sublist.filter (u.1 < ·.1)
    rw [List.filter_eq_self.mpr later] at part
    refine Nat.le_trans (Nat.le_of_eq ?_) part.length_le
    rw [form, List.length_append, List.length_drop, full]
    rfl
  · intro f behind less e found
    have here := stays f behind (Nat.le_of_lt less)
    have next := stays (f + 1) (Nat.lt_succ_of_lt behind) less
    cases line : waiting history f with
    | nil => rw [line] at here; cases here
    | cons head others =>
        have brought := right f e found
        rw [line] at brought
        rw [brought] at found
        exact ⟨by rw [brought]; rfl, right.sourceOf_lt found (Nat.lt_succ_self f) u next⟩

/-- What has not come out when nothing waits any longer was crowded out, and what was crowded out
has not come out. -/
theorem FetchesFirst.lost_iff {g : Nat} (inside : u ∈ unheard history g)
    (drained : history[g]? = some (.fetched none)) :
    (∀ f < g, ∀ e, history[f]? = some (.fetched (some e)) → sourceOf history f ≠ u.1) ↔
      ∃ place < g, CrowdsOut history (sourceOf history) u.1 place := by
  obtain ⟨before, found⟩ := Subscriptions.mem_unheard.mp inside
  constructor
  · intro never
    have enters : u ∈ waiting history (u.1 + 1) := by
      rw [waiting_of_unheard found]
      simp
    have gone : u ∉ waiting history g := by
      have nothing := (right g none drained).symm
      rw [Option.map_eq_none_iff, List.head?_eq_none_iff] at nothing
      rw [nothing]
      exact List.not_mem_nil
    obtain ⟨place, less, after, stays, left⟩ := exists_leaving enters gone before
    obtain ⟨first, ⟨f, fetched⟩ | ⟨unheardThere, full⟩⟩ :=
      leaves (stays place after (Nat.le_refl place)) left
    · have brought := right place f fetched
      rw [first] at brought
      rw [brought] at fetched
      refine absurd ?_ (never place less _ fetched)
      rw [sourceOf, first]
      rfl
    · exact ⟨place, less, right.crowdsOut stays after first unheardThere full⟩
  · rintro ⟨place, -, crowds⟩ f - e fetched same
    rcases Nat.lt_trichotomy f place with earlier | rfl | later
    · by_cases behind : u.1 < f
      · exact absurd same (Nat.ne_of_lt (crowds.stays f behind earlier _ fetched).2)
      · have began := (Subscriptions.mem_unheard.mp (right.mem_unheard fetched)).1
        omega
    · obtain ⟨d, unheardThere⟩ := Option.isSome_iff_exists.mp crowds.alone
      exact fetched_of_unheard? unheardThere fetched
    · have waits := List.mem_of_mem_head? (right.head fetched)
      have beyond := lt_of_mem_waiting later (Nat.lt_succ_of_lt crowds.after)
        (lt_of_many crowds.many) _ waits
      exact absurd same (Nat.ne_of_gt beyond)

end EditorBridge.Subscriptions
