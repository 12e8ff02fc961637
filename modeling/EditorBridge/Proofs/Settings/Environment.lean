import Mathlib.Data.List.Basic
import EditorBridge.Proofs.Text.Path
import EditorBridge.Settings.Client

/-!
# Environments of clients

What the program of a client finds in its environment. Three layers lie on each other: the variables
of the process at the bottom, the search path with the client's directories in front of those of the
process, and the client's own variables on top (`Layers`). There is no such environment just if one
of the directories has a colon in its name, and it is empty just if the client changes nothing
(`environment?_layered`). A process without a search path has no directories, and yet the client's
are not alone then: the missing path is taken for an empty one, which stands for one directory
without a name (`addsNothingElse_iff`).
-/

namespace EditorBridge

/-! ### Variables -/

namespace Environment

/-- Whether no variable occurs twice. -/
def IsDistinct (env : Environment) : Prop :=
  (env.map Prod.fst).Nodup

theorem get?_eq_none {name : String} {env : Environment} (absent : name ∉ env.map Prod.fst) :
    env.get? name = none := by
  induction env with
  | nil => rfl
  | cons entry env ih =>
      obtain ⟨key, value⟩ := entry
      rw [List.map_cons, List.mem_cons, not_or] at absent
      rw [get?, if_neg (Ne.symm absent.1), ih absent.2]

theorem get?_extend_of_none {name : String} {other : Environment} (absent : other.get? name = none)
    (env : Environment) : (env.extend other).get? name = env.get? name := by
  induction other generalizing env with
  | nil => rfl
  | cons entry other ih =>
      obtain ⟨key, value⟩ := entry
      rw [get?] at absent
      split at absent
      · cases absent
      · next different =>
          exact (ih absent (env.set key value)).trans
            (get?_set_of_ne value env (Ne.symm different))

theorem get?_extend_of_some {name value : String} {other : Environment}
    (distinct : other.IsDistinct) (present : other.get? name = some value) (env : Environment) :
    (env.extend other).get? name = some value := by
  induction other generalizing env with
  | nil => cases present
  | cons entry other ih =>
      obtain ⟨key, new⟩ := entry
      obtain ⟨fresh, others⟩ := List.nodup_cons.mp distinct
      rw [get?] at present
      split at present
      · next same =>
          subst same
          obtain rfl := Option.some.inj present
          exact (get?_extend_of_none (get?_eq_none fresh) (env.set key new)).trans
            (get?_set_self key new env)
      · exact ih others present (env.set key new)

theorem mem_names_set {name value key : String} {env : Environment} :
    key ∈ (env.set name value).map Prod.fst → key = name ∨ key ∈ env.map Prod.fst := by
  induction env with
  | nil => simp [set]
  | cons entry env ih =>
      obtain ⟨first, old⟩ := entry
      rw [set]
      split
      · next same =>
          rw [List.map_cons, List.map_cons, same]
          exact .inr
      · rw [List.map_cons, List.map_cons, List.mem_cons, List.mem_cons]
        rintro (same | later)
        · exact .inr (.inl same)
        · exact (ih later).imp_right .inr

theorem IsDistinct.set {env : Environment} (distinct : env.IsDistinct) (name value : String) :
    (env.set name value).IsDistinct := by
  induction env with
  | nil => simp [Environment.set, IsDistinct]
  | cons entry env ih =>
      obtain ⟨key, old⟩ := entry
      obtain ⟨fresh, others⟩ := List.nodup_cons.mp distinct
      rw [Environment.set]
      split
      · next same => exact List.nodup_cons.mpr ⟨same ▸ fresh, others⟩
      · next different =>
          refine List.nodup_cons.mpr ⟨fun inside => ?_, ih others⟩
          rcases mem_names_set inside with same | old
          · exact different same
          · exact fresh old

theorem IsDistinct.extend {env : Environment} (distinct : env.IsDistinct) (other : Environment) :
    (env.extend other).IsDistinct := by
  induction other generalizing env with
  | nil => exact distinct
  | cons entry other ih => exact ih (distinct.set entry.1 entry.2)

theorem set_ne_nil (name value : String) (env : Environment) : env.set name value ≠ [] := by
  intro empty
  have found := get?_set_self name value env
  rw [empty] at found
  cases found

theorem extend_eq_nil_iff {env other : Environment} :
    env.extend other = [] ↔ env = [] ∧ other = [] := by
  induction other generalizing env with
  | nil => simp [extend]
  | cons entry other ih =>
      change (env.set entry.1 entry.2).extend other = [] ↔ _
      simp [ih, set_ne_nil]

/-- The directories in which a process with an environment looks for programs. Without a search path
there are none. -/
def directories (env : Environment) : List String :=
  match env.get? SearchPath.variableName with
  | some path => SearchPath.split path
  | none => []

end Environment

/-! ### Search paths -/

namespace SearchPath

theorem split_ne_nil (path : String) : split path ≠ [] := by
  simpa [split] using Text.split_ne_nil (· == ':') path.toList

theorem colon_notMem_of_mem_split {path directory : String} (inside : directory ∈ split path) :
    ':' ∉ directory.toList := by
  obtain ⟨part, found, rfl⟩ := List.mem_map.mp inside
  rw [String.toList_ofList]
  intro colon
  have clean := Text.split_clean found ':' colon
  cases clean

theorem join?_eq_none_iff {directories : List String} :
    join? directories = none ↔ ∃ directory ∈ directories, ':' ∈ directory.toList := by
  simp [join?]

/-- The directories of a search path are those that were joined, if there were any. -/
theorem split_of_join? {directories : List String} {path : String} (filled : directories ≠ [])
    (joined : join? directories = some path) : split path = directories := by
  rw [join?] at joined
  split at joined
  · cases joined
  · next clean =>
      obtain rfl := Option.some.inj joined
      have noColon : ∀ part ∈ directories.map String.toList, ∀ c ∈ part, (c == ':') = false := by
        intro part inside c here
        obtain ⟨directory, listed, rfl⟩ := List.mem_map.mp inside
        rw [beq_eq_false_iff_ne]
        rintro rfl
        exact clean (by simpa using ⟨directory, listed, here⟩)
      rw [split, String.toList_ofList,
        Text.split_join _ _ _ (by decide) (by simpa using filled) noColon]
      simp

end SearchPath

/-! ### Environments -/

namespace Client

variable {c : Client} {processEnv : Environment}

/-- The directories in a client's search path: its own, and those in the path of the process, where
a missing path is taken for an empty one. -/
def searched (c : Client) (processEnv : Environment) : List String :=
  c.pathAdditions ++ SearchPath.split ((processEnv.get? SearchPath.variableName).getD "")

theorem searched_ne_nil (c : Client) (processEnv : Environment) : c.searched processEnv ≠ [] := by
  simp [searched, SearchPath.split_ne_nil]

theorem join?_searched_eq_none_iff :
    SearchPath.join? (c.searched processEnv) = none ↔
      ∃ addition ∈ c.pathAdditions, ':' ∈ addition.toList := by
  rw [SearchPath.join?_eq_none_iff]
  constructor
  · rintro ⟨directory, inside, colon⟩
    rcases List.mem_append.mp inside with added | old
    · exact ⟨directory, added, colon⟩
    · exact absurd colon (SearchPath.colon_notMem_of_mem_split old)
  · rintro ⟨addition, added, colon⟩
    exact ⟨addition, List.mem_append_left _ added, colon⟩

theorem environment?_of_nothing (addsNone : c.pathAdditions = []) (setsNone : c.env = []) :
    c.environment? processEnv = some [] := by
  simp [environment?, addsNone, setsNone]

theorem environment?_of_variables (addsNone : c.pathAdditions = []) (sets : c.env ≠ []) :
    c.environment? processEnv = some (processEnv.extend c.env) := by
  simp [environment?, addsNone, sets]

theorem environment?_of_additions (adds : c.pathAdditions ≠ []) :
    c.environment? processEnv = (SearchPath.join? (c.searched processEnv)).map fun path =>
      (processEnv.set SearchPath.variableName path).extend c.env := by
  simp [environment?, adds, searched, Function.comp_def]

/-- There is no environment just if a directory with a colon in its name is to be added. -/
theorem environment?_eq_none_iff :
    c.environment? processEnv = none ↔ ∃ addition ∈ c.pathAdditions, ':' ∈ addition.toList := by
  by_cases addsNone : c.pathAdditions = []
  · by_cases setsNone : c.env = []
    · simp [environment?_of_nothing addsNone setsNone, addsNone]
    · simp [environment?_of_variables addsNone setsNone, addsNone]
  · rw [environment?_of_additions addsNone, Option.map_eq_none_iff, join?_searched_eq_none_iff]

theorem exists_environment? (clean : ∀ addition ∈ c.pathAdditions, ':' ∉ addition.toList) :
    ∃ env, c.environment? processEnv = some env := by
  rw [← Option.ne_none_iff_exists', ne_eq, environment?_eq_none_iff]
  exact fun ⟨addition, added, colon⟩ => clean addition added colon

/-- With additions, the search path of the process is replaced by a longer one. -/
theorem exists_searchPath {env : Environment} (adds : c.pathAdditions ≠ [])
    (made : c.environment? processEnv = some env) :
    ∃ path, SearchPath.split path = c.searched processEnv ∧
      env = (processEnv.set SearchPath.variableName path).extend c.env := by
  rw [environment?_of_additions adds] at made
  obtain ⟨path, joined, rfl⟩ := Option.map_eq_some_iff.mp made
  exact ⟨path, SearchPath.split_of_join? (searched_ne_nil c processEnv) joined, rfl⟩

/-- The search path holds the directories that are searched, unless the client sets it itself. -/
theorem exists_path_of_environment? {env : Environment} (adds : c.pathAdditions ≠ [])
    (notMine : c.env.get? SearchPath.variableName = none)
    (made : c.environment? processEnv = some env) :
    ∃ path, env.get? SearchPath.variableName = some path ∧
      SearchPath.split path = c.searched processEnv := by
  obtain ⟨path, directories, rfl⟩ := exists_searchPath adds made
  refine ⟨path, ?_, directories⟩
  rw [Environment.get?_extend_of_none notMine, Environment.get?_set_self]

/-- The environment is empty, which stands for that of the process, if nothing is changed and not
otherwise. -/
theorem eq_nil_iff_of_environment? {env : Environment}
    (made : c.environment? processEnv = some env) :
    env = [] ↔ c.pathAdditions = [] ∧ c.env = [] := by
  by_cases addsNone : c.pathAdditions = []
  · by_cases setsNone : c.env = []
    · rw [environment?_of_nothing addsNone setsNone] at made
      simp [← Option.some.inj made, addsNone, setsNone]
    · rw [environment?_of_variables addsNone setsNone] at made
      simp [← Option.some.inj made, Environment.extend_eq_nil_iff, setsNone]
  · obtain ⟨path, -, rfl⟩ := exists_searchPath addsNone made
    simp [Environment.extend_eq_nil_iff, Environment.set_ne_nil, addsNone]

/-- Whether an environment is put together from the variables of a client, the directories that it
adds, and the environment of the process. The variables of the client are set (`own`). If the search
path is not among them, the directories are added in front (`path`). All else is as in the process
(`inherited`). No variable is set twice (`distinct`). -/
structure Layers (c : Client) (processEnv env : Environment) : Prop where
  own : ∀ name value, c.env.get? name = some value → env.get? name = some value
  path : c.env.get? SearchPath.variableName = none → c.pathAdditions ≠ [] →
    ∃ path, env.get? SearchPath.variableName = some path ∧
      SearchPath.split path = c.pathAdditions ++ processEnv.directories
  inherited : ∀ name, c.env.get? name = none →
    (name = SearchPath.variableName → c.pathAdditions = []) →
      env.get? name = processEnv.get? name
  distinct : processEnv.IsDistinct → env.IsDistinct

theorem searched_of_present {path : String}
    (present : processEnv.get? SearchPath.variableName = some path) :
    c.searched processEnv = c.pathAdditions ++ processEnv.directories := by
  rw [searched, Environment.directories, present, Option.getD_some]

theorem layers_of_environment? {env : Environment} {existing : String}
    (present : processEnv.get? SearchPath.variableName = some existing)
    (distinct : c.env.IsDistinct) (made : c.environment? processEnv = some env)
    (changes : c.pathAdditions ≠ [] ∨ c.env ≠ []) : c.Layers processEnv env := by
  by_cases addsNone : c.pathAdditions = []
  · rw [environment?_of_variables addsNone (changes.resolve_left fun adds => adds addsNone)] at made
    obtain rfl := Option.some.inj made
    refine ⟨?_, ?_, ?_, fun once => once.extend c.env⟩
    · exact fun name value mine => Environment.get?_extend_of_some distinct mine processEnv
    · exact fun _ adds => absurd addsNone adds
    · exact fun name notMine _ => Environment.get?_extend_of_none notMine processEnv
  · obtain ⟨path, -, rfl⟩ := exists_searchPath addsNone made
    refine ⟨?_, ?_, ?_, fun once => (once.set _ path).extend c.env⟩
    · exact fun name value mine => Environment.get?_extend_of_some distinct mine _
    · intro notMine adds
      rw [← searched_of_present present]
      exact exists_path_of_environment? adds notMine made
    · intro name notMine others
      have different : name ≠ SearchPath.variableName := fun same => addsNone (others same)
      rw [Environment.get?_extend_of_none notMine, Environment.get?_set_of_ne _ _ different]

/-- In a process that has a search path, the program of a client gets its environment in layers, if
the additions can be in a search path, and the empty one just if the client changes nothing. -/
theorem environment?_layered {existing : String}
    (present : processEnv.get? SearchPath.variableName = some existing)
    (distinct : c.env.IsDistinct) :
    (c.environment? processEnv = none ↔
      ∃ addition ∈ c.pathAdditions, ':' ∈ addition.toList) ∧
    ∀ env, c.environment? processEnv = some env →
      (env = [] ↔ c.pathAdditions = [] ∧ c.env = []) ∧ (env ≠ [] → c.Layers processEnv env) := by
  refine ⟨environment?_eq_none_iff, fun env made => ?_⟩
  have empty := eq_nil_iff_of_environment? made
  refine ⟨empty, fun filled => layers_of_environment? present distinct made ?_⟩
  rwa [ne_eq, empty, not_and_or] at filled

/-- A client that sets two variables and adds a directory and the working directory. -/
def workshop : Client :=
  ⟨"pylsp", ["-v"], ["py"], [("PYTHONPATH", "/src"), ("HOME", "")], ["/opt/tools", ""], none⟩

/-- The environment of a process with a search path that names the working directory twice. -/
def surroundings : Environment :=
  [("PATH", "/bin::"), ("HOME", "/root"), ("LANG", "C")]

theorem environment?_layered_workshop :
    ∃ env path, workshop.environment? surroundings = some env ∧
      env.get? "PYTHONPATH" = some "/src" ∧ env.get? "HOME" = some "" ∧
      env.get? "LANG" = some "C" ∧ env.get? "TERM" = none ∧ env.get? "PATH" = some path ∧
      SearchPath.split path = ["/opt/tools", "", "/bin", "", ""] := by
  have distinct : workshop.env.IsDistinct := by
    change ["PYTHONPATH", "HOME"].Nodup
    decide
  obtain ⟨refused, given⟩ := @environment?_layered workshop surroundings "/bin::" rfl distinct
  obtain ⟨env, made⟩ := Option.ne_none_iff_exists'.mp (mt refused.mp (by decide))
  obtain ⟨empty, layers⟩ := given env made
  obtain ⟨own, path, inherited, -⟩ := layers (mt empty.mp (by decide))
  obtain ⟨path, found, directories⟩ := path (by decide) (by decide)
  refine ⟨env, path, made, own _ _ (by decide), own _ _ (by decide), ?_, ?_, found, ?_⟩
  · exact inherited "LANG" (by decide) (by decide)
  · exact inherited "TERM" (by decide) (by decide)
  · exact directories.trans (by decide)

/-! ### Processes without a search path -/

theorem directories_of_environment? {env : Environment} (adds : c.pathAdditions ≠ [])
    (notMine : c.env.get? SearchPath.variableName = none)
    (made : c.environment? processEnv = some env) : env.directories = c.searched processEnv := by
  obtain ⟨path, present, directories⟩ := exists_path_of_environment? adds notMine made
  rw [Environment.directories, present]
  exact directories

/-- A client's additions come in front of the directories of the process, and there is nothing else
between or behind them just if the process has a search path. If it has none, the working directory
is put behind them. -/
theorem addsNothingElse_iff (adds : c.pathAdditions ≠ [])
    (proper : ∀ addition ∈ c.pathAdditions, addition ≠ "" ∧ ':' ∉ addition.toList)
    (notMine : c.env.get? SearchPath.variableName = none) :
    ∃ env, c.environment? processEnv = some env ∧
      (env.directories = c.pathAdditions ++ processEnv.directories ↔
        processEnv.get? SearchPath.variableName ≠ none) ∧
      ("" ∈ env.directories ↔
        processEnv.get? SearchPath.variableName = none ∨ "" ∈ processEnv.directories) ∧
      (processEnv.get? SearchPath.variableName = none →
        env.directories = c.pathAdditions ++ [""]) := by
  obtain ⟨env, made⟩ :=
    @exists_environment? c processEnv fun addition added => (proper addition added).2
  have named : "" ∉ c.pathAdditions := fun added => (proper "" added).1 rfl
  have directories := directories_of_environment? adds notMine made
  refine ⟨env, made, ?_⟩
  cases present : processEnv.get? SearchPath.variableName with
  | none =>
      have unnamed : env.directories = c.pathAdditions ++ [""] := by
        rw [directories, searched, present]
        rfl
      have noDirectories : processEnv.directories = [] := by
        rw [Environment.directories, present]
      simp [unnamed, noDirectories]
  | some path =>
      rw [directories, searched_of_present present]
      simp [named]

/-- A client that adds one directory. -/
def toolbox : Client :=
  ⟨"pylsp", [], ["py"], [], ["/opt/tools/bin"], none⟩

theorem addsNothingElse_iff_toolbox :
    ∃ env, toolbox.environment? [("HOME", "/root")] = some env ∧
      env.directories = ["/opt/tools/bin", ""] := by
  obtain ⟨env, made, -, -, unset⟩ :=
    @addsNothingElse_iff toolbox [("HOME", "/root")] (by decide) (by decide) (by decide)
  exact ⟨env, made, unset (by decide)⟩

/-- Without a search path in the process, the working directory is searched after the additions. -/
theorem not_addsNothingElse_toolbox :
    ¬ ∀ (c : Client) (processEnv : Environment),
      processEnv.get? SearchPath.variableName = none → c.pathAdditions ≠ [] →
      (∀ addition ∈ c.pathAdditions, addition ≠ "" ∧ ':' ∉ addition.toList) →
      c.env.get? SearchPath.variableName = none →
        ∃ env path, c.environment? processEnv = some env ∧
          env.get? SearchPath.variableName = some path ∧
          SearchPath.split path = c.pathAdditions := by
  intro all
  obtain ⟨env, path, made, found, same⟩ :=
    all toolbox [] rfl (by decide) (by decide) (by decide)
  have directories := directories_of_environment? (by decide) (by decide) made
  rw [Environment.directories, found] at directories
  exact absurd (same.symm.trans directories) (by decide)

end Client

end EditorBridge
