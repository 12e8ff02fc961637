import EditorBridge.Proofs.Practice.Pieces
import Mathlib.Data.List.Induction

/-!
# Exits of the practice server

The practice server exits with a code that is meant, zero or one, or it dies of a change. A change
brings it down if an end of its range is so far behind the start of its line that the position has
no number of 64 bits (`IsFar`, `exists_error_applyChange_iff`). Nothing else does, whatever
texts the server obeys (`obey_eq_crashCode_iff`).
-/

namespace EditorBridge.Practice

/-! ### Changes without a value -/

/-- Whether an end of a range has no position among the numbers of 64 bits. -/
def EndIsFar (text : List Char) (range : Json) (name : String) : Prop :=
  ∃ position line column, range.get? name = some position ∧
    (position.get? "line").bind Json.natural? = some line ∧
    (position.get? "character").bind Json.natural? = some column ∧
    UInt64.size ≤ Text.Utf8.byteLength ((Text.fullLines text).take line).flatten + column

/-- Whether a change replaces a range with such an end. -/
def IsFar (text : List Char) (change : Json) : Prop :=
  ((change.get? "text").bind Json.string?).isSome = true ∧
    ∃ range, change.get? "range" = some range ∧
      (EndIsFar text range "start" ∨ EndIsFar text range "end")

/-- A sum, or the steps after it, come to a fault. -/
theorem bind_eq_error_iff {ε α β : Type} {x : Except ε α} {f : α → Except ε β} {e : ε} :
    x >>= f = .error e ↔ x = .error e ∨ ∃ a, x = .ok a ∧ f a = .error e := by
  cases x with
  | error why => simp [bind, Except.bind]
  | ok a => simp [bind, Except.bind]

/-- Steps one after the other come to a fault if one of them does after those before it. -/
theorem foldlM_eq_error_iff {ε α β : Type} {f : β → α → Except ε β} {items : List α} {start : β}
    {e : ε} : items.foldlM f start = .error e ↔
      ∃ before item after state, items = before ++ item :: after ∧
        before.foldlM f start = .ok state ∧ f state item = .error e := by
  induction items generalizing start with
  | nil =>
      refine iff_of_false nofun ?_
      rintro ⟨before, item, after, state, split, -⟩
      simp at split
  | cons item items ih =>
      rw [List.foldlM_cons, bind_eq_error_iff]
      constructor
      · rintro (here | ⟨state, taken, later⟩)
        · exact ⟨[], item, items, start, rfl, rfl, here⟩
        · obtain ⟨before, other, after, last, rfl, reached, fault⟩ := ih.mp later
          refine ⟨item :: before, other, after, last, rfl, ?_, fault⟩
          rw [List.foldlM_cons, taken]
          exact reached
      · rintro ⟨before, other, after, last, split, reached, fault⟩
        cases before with
        | nil =>
            obtain ⟨rfl, rfl⟩ := List.cons.inj split
            cases reached
            exact .inl fault
        | cons first before =>
            obtain ⟨rfl, rfl⟩ := List.cons.inj split
            rw [List.foldlM_cons] at reached
            cases taken : f start item with
            | error why =>
                rw [taken] at reached
                cases reached
            | ok state =>
                rw [taken] at reached
                exact .inr ⟨state, rfl, ih.mpr ⟨before, other, after, last, rfl, reached, fault⟩⟩

theorem exists_error_bytePosition_iff {text : List Char} {line column : Nat} :
    (∃ e, bytePosition .checked text line column = .error e) ↔
      UInt64.size ≤ Text.Utf8.byteLength ((Text.fullLines text).take line).flatten + column := by
  rw [bytePosition]
  rcases Nat.lt_or_ge (Text.Utf8.byteLength ((Text.fullLines text).take line).flatten + column)
    UInt64.size with fits | great
  · rw [Arithmetic.add_of_lt fits]
    exact iff_of_false (fun fails => nomatch fails.choose_spec) (Nat.not_le.mpr fits)
  · rw [Arithmetic.add_of_le great]
    exact iff_of_true ⟨.sum, rfl⟩ great

theorem exists_error_rangeEnd?_iff {text : List Char} {range : Json} {name : String} :
    (∃ e, rangeEnd? .checked text range name = .error e) ↔ EndIsFar text range name := by
  rw [rangeEnd?, EndIsFar]
  cases range.get? name with
  | none => simp
  | some position =>
      simp only [jsonPosition?, Option.some.injEq, exists_and_left, exists_eq_left']
      cases (position.get? "line").bind Json.natural? with
      | none => simp
      | some line =>
          cases (position.get? "character").bind Json.natural? with
          | none => simp
          | some column =>
              simp only [Option.some.injEq, exists_eq_left', ← exists_error_bytePosition_iff]
              cases bytePosition .checked text line column <;> simp [Except.map]

/-- A change comes to a fault just if one of its ends is too far away. -/
theorem exists_error_applyChange_iff {text : List Char} {change : Json} :
    (∃ e, applyChange .checked text change = .error e) ↔ IsFar text change := by
  rw [applyChange, IsFar]
  cases (change.get? "text").bind Json.string? with
  | none => simp
  | some new =>
      cases change.get? "range" with
      | none => simp
      | some range =>
          simp only [Option.isSome_some, true_and, Option.some.injEq, exists_eq_left',
            ← exists_error_rangeEnd?_iff]
          cases rangeEnd? .checked text range "start" with
          | error why => simp [bind, Except.bind]
          | ok start =>
              cases rangeEnd? .checked text range "end" with
              | error why => simp [bind, Except.bind]
              | ok finish => simp [bind, Except.bind, pure, Except.pure]

/-! ### Exits that are meant -/

/-- Whether a server exits only with one of the codes that are meant. -/
def AreMild (acts : List Act) : Prop :=
  ∀ code, .exit code ∈ acts → code ≤ 1

theorem areMild_nil : AreMild [] :=
  nofun

theorem areMild_cons {act : Act} {acts : List Act} (first : ∀ code, act = .exit code → code ≤ 1)
    (rest : AreMild acts) : AreMild (act :: acts) := by
  intro code inside
  rcases List.mem_cons.mp inside with same | later
  · exact first code same.symm
  · exact rest code later

theorem areMild_ite {p : Prop} [Decidable p] {acts others : List Act} (mild : AreMild acts)
    (milder : AreMild others) : AreMild (if p then acts else others) := by
  split
  · exact mild
  · exact milder

theorem areMild_exit {code : Nat} (small : code ≤ 1) : AreMild [.exit code] :=
  areMild_cons (fun _ same => Act.exit.inj same ▸ small) areMild_nil

theorem areMild_answer (s : Server) (message : Json) : AreMild (s.answer message).2 :=
  areMild_cons nofun (areMild_ite (areMild_exit (Nat.le_refl 1)) areMild_nil)

theorem areMild_andThen {first : Server × List Act} {second : Server → Server × List Act}
    (mild : AreMild first.2) (milder : ∀ s, AreMild (second s).2) :
    AreMild (Server.andThen first second).2 := by
  rw [Server.andThen]
  split
  · exact mild
  · intro code inside
    rcases List.mem_append.mp inside with before | after
    · exact mild code before
    · exact milder first.1 code after

theorem areMild_takeRequest (s : Server) (id : Json) (method : String) (params : Json) :
    AreMild (s.takeRequest id method params).2 := by
  rw [Server.takeRequest]
  split
  · exact areMild_nil
  · split
    · exact areMild_answer s _
    · dsimp only
      split
      · exact areMild_answer s _
      · next result _ =>
          have answered : AreMild (if s.options.slowOn.contains method then
              (s, [Act.later s.options.slowDelay (Server.resultJson id result)])
              else s.answer (Server.resultJson id result)).2 := by
            split
            · exact areMild_cons nofun areMild_nil
            · exact areMild_answer s _
          split
          · exact areMild_andThen answered fun _ => areMild_cons nofun areMild_nil
          · exact answered

theorem areMild_publish (s : Server) (uri : String) : AreMild (s.publish uri) := by
  refine areMild_ite areMild_nil ?_
  split
  · exact areMild_nil
  · exact areMild_cons nofun areMild_nil

theorem exitIn_le {acts : List Act} {code : Nat} (mild : AreMild acts)
    (exits : Running.exitIn acts = some code) : code ≤ 1 := by
  obtain ⟨act, inside, same⟩ := List.exists_of_findSome?_eq_some exits
  cases act with
  | exit other => exact Option.some.inj same ▸ mild other inside
  | write | later => cases same

/-! ### Deaths -/

/-- The text of a file before it is changed. -/
def Server.textOf (s : Server) (file : Json) : List Char :=
  ((s.document? (uriOf file)).map (·.text)).getD []

/-- Whether one of some changes of a file has an end that is too far away when its turn comes. -/
def Server.Overreaches (s : Server) (file : Json) (changes : List Json) : Prop :=
  ∃ before change after text, changes = before ++ change :: after ∧
    before.foldlM (applyChange arithmetic) (s.textOf file) = .ok text ∧ IsFar text change

/-- Whether a message asks a server for such changes. -/
def Server.IsOverreached (s : Server) (m : Message) : Prop :=
  m.method = some "textDocument/didChange" ∧ m.id = none ∧
    ∃ file, m.params.get? "textDocument" = some file ∧
      s.Overreaches file (((m.params.get? "contentChanges").bind Json.array?).getD [])

theorem exitIn_ne_crashCode {acts : List Act} (mild : AreMild acts) :
    Running.exitIn acts ≠ some crashCode :=
  fun exits => absurd (exitIn_le mild exits) (by decide)

theorem exists_error_foldlM_iff {s : Server} {file : Json} {changes : List Json} :
    (∃ e, changes.foldlM (applyChange Server.arithmetic) (s.textOf file) = .error e) ↔
      s.Overreaches file changes := by
  constructor
  · rintro ⟨e, fails⟩
    obtain ⟨before, change, after, text, split, reached, fault⟩ := foldlM_eq_error_iff.mp fails
    exact ⟨before, change, after, text, split, reached,
      exists_error_applyChange_iff.mp ⟨e, fault⟩⟩
  · rintro ⟨before, change, after, text, split, reached, far⟩
    obtain ⟨e, fault⟩ := exists_error_applyChange_iff.mpr far
    exact ⟨e, foldlM_eq_error_iff.mpr ⟨before, change, after, text, split, reached, fault⟩⟩

/-- A server dies of some changes, or it goes on or exits as it is meant to. -/
theorem changeFile_cases (s : Server) (file : Json) (changes : List Json) :
    s.Overreaches file changes ∧ (s.changeFile file changes).2 = [.exit crashCode] ∨
      ¬ s.Overreaches file changes ∧ AreMild (s.changeFile file changes).2 := by
  rw [← exists_error_foldlM_iff, Server.changeFile, Server.textOf]
  dsimp only
  cases changes.foldlM (applyChange Server.arithmetic)
    (((s.document? (Server.uriOf file)).map (·.text)).getD []) with
  | error e => exact .inl ⟨⟨e, rfl⟩, rfl⟩
  | ok text => exact .inr ⟨(fun ⟨_, fails⟩ => nomatch fails), areMild_publish _ _⟩

/-- A notification brings a server down just if it asks for such changes. -/
theorem exitIn_takeNotification_iff {s : Server} {method : String} {params failure} :
    Running.exitIn (s.takeNotification method params).2 = some crashCode ↔
      s.IsOverreached ⟨none, some method, params, failure⟩ := by
  have meant {acts : List Act} (apart : method ≠ "textDocument/didChange") (mild : AreMild acts) :
      Running.exitIn acts = some crashCode ↔
        s.IsOverreached ⟨none, some method, params, failure⟩ :=
    iff_of_false (exitIn_ne_crashCode mild) fun far => apart (Option.some.inj far.1)
  unfold Server.takeNotification
  split
  · exact meant (by decide) (areMild_publish _ _)
  · next file described =>
      rcases changeFile_cases s file (((params.get? "contentChanges").bind Json.array?).getD [])
        with ⟨far, dies⟩ | ⟨near, mild⟩
      · rw [dies]
        exact iff_of_true rfl ⟨rfl, rfl, file, described, far⟩
      · refine iff_of_false (exitIn_ne_crashCode mild) ?_
        rintro ⟨-, -, other, described', far⟩
        obtain rfl := Option.some.inj (described.symm.trans described')
        exact near far
  · exact meant (by decide) (areMild_exit (Nat.zero_le 1))
  · next notChange =>
      refine iff_of_false (exitIn_ne_crashCode areMild_nil) ?_
      rintro ⟨same, -, file, described, -⟩
      exact notChange file (Option.some.inj same) described

/-- A message brings a server down just if it asks for such changes. -/
theorem exitIn_handle_iff (s : Server) (m : Message) :
    Running.exitIn (s.handle m).2 = some crashCode ↔ s.IsOverreached m := by
  obtain ⟨id, method, params, failure⟩ := m
  cases method with
  | none =>
      refine iff_of_false (exitIn_ne_crashCode ?_) fun far => nomatch far.1
      cases id with
      | none => exact areMild_nil
      | some id => exact areMild_ite (areMild_cons nofun areMild_nil) areMild_nil
  | some method =>
      cases id with
      | some id =>
          exact iff_of_false (exitIn_ne_crashCode (areMild_takeRequest s id method params))
            fun far => nomatch far.2.1
      | none => exact exitIn_takeNotification_iff

theorem obey_concat_eq_some_iff {s : Server} {texts : List (List Char)} {text : List Char}
    {code : Nat} : (s.obey (texts ++ [text])).2.2 = some code ↔
      (s.obey texts).2.2 = some code ∨ (s.obey texts).2.2 = none ∧
        ∃ message, Message.parse? text = some message ∧
          Running.exitIn ((s.obey texts).1.handle message).2 = some code := by
  rw [Server.obey_append]
  rcases s.obey texts with ⟨s', acts, _ | first⟩
  · simp only [Server.goOn, Server.obey]
    cases Message.parse? text with
    | none => simp
    | some message => cases exits : Running.exitIn (s'.handle message).2 <;> simp [exits]
  · simp [Server.goOn]

/-- A server that obeys texts exits by one that makes it exit when its turn comes. -/
theorem obey_eq_some_iff {s : Server} {texts : List (List Char)} {code : Nat} :
    (s.obey texts).2.2 = some code ↔
      ∃ before text after message, texts = before ++ text :: after ∧
        (s.obey before).2.2 = none ∧ Message.parse? text = some message ∧
        Running.exitIn ((s.obey before).1.handle message).2 = some code := by
  induction texts using List.reverseRecOn with
  | nil =>
      refine iff_of_false nofun ?_
      rintro ⟨before, text, after, message, split, -⟩
      simp at split
  | append_singleton texts last ih =>
      rw [obey_concat_eq_some_iff, ih]
      constructor
      · rintro (⟨before, text, after, message, rfl, exits⟩ | ⟨stays, message, exits⟩)
        · exact ⟨before, text, after ++ [last], message, by simp, exits⟩
        · exact ⟨texts, last, [], message, rfl, stays, exits⟩
      · rintro ⟨before, text, after, message, split, exits⟩
        rcases List.eq_nil_or_concat after with rfl | ⟨after, final, rfl⟩
        · obtain ⟨rfl, same⟩ := List.append_inj' split rfl
          obtain ⟨rfl, -⟩ := List.cons.inj same
          exact .inr ⟨exits.1, message, exits.2⟩
        · rw [List.concat_eq_append, ← List.cons_append, ← List.append_assoc] at split
          obtain ⟨rfl, -⟩ := List.append_inj' split rfl
          exact .inl ⟨before, text, after, message, rfl, exits⟩

/-- Whether a server that obeys texts comes to such a message before it exits. -/
def Server.IsBroughtDown (s : Server) (texts : List (List Char)) : Prop :=
  ∃ before text after message, texts = before ++ text :: after ∧
    (s.obey before).2.2 = none ∧ Message.parse? text = some message ∧
    (s.obey before).1.IsOverreached message

theorem obey_eq_crashCode_iff {s : Server} {texts : List (List Char)} :
    (s.obey texts).2.2 = some crashCode ↔ s.IsBroughtDown texts := by
  simp only [obey_eq_some_iff, exitIn_handle_iff, Server.IsBroughtDown]

end EditorBridge.Practice
