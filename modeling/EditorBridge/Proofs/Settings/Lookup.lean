import EditorBridge.Proofs.Settings.Environment
import EditorBridge.Settings.Program

/-!
# Where programs of clients are found

A program whose name has no slash is looked up in the directories that its client adds, in their
order, and then in those of the process (`additionsWin`). It makes no difference here that a process
without a search path has an unnamed directory behind the additions: what is found in that one is
called as the program is called if it is not found.
-/

namespace EditorBridge

namespace Text

/-- A path without slashes has at most one component. -/
theorem length_pathComponents_le_one {path : List Char} (noSlash : '/' ∉ path) :
    (pathComponents path).length ≤ 1 := by
  have alone : split (· == '/') path = [path] := by
    have clean : ∀ c ∈ path, (c == '/') = false := by
      intro c inside
      rw [beq_eq_false_iff_ne]
      exact fun same => noSlash (same ▸ inside)
    simpa [split] using split_append (· == '/') path [] clean
  have names : (pathNames path).length ≤ 1 := by
    rw [pathNames, alone]
    exact List.length_filter_le _ [path]
  rw [pathComponents, alone]
  split
  · next same => cases same
  · next same =>
      obtain ⟨rfl, -⟩ := List.cons.inj same
      decide
  · exact names

end Text

namespace Program

/-- The first file with a name in a list of directories. -/
def firstIn? (isFile : String → Bool) (name : String) (directories : List String) :
    Option String :=
  (directories.map (inside · name)).find? isFile

variable {isFile : String → Bool} {name : String}

theorem firstIn?_append (first second : List String) :
    firstIn? isFile name (first ++ second) =
      (firstIn? isFile name first).or (firstIn? isFile name second) := by
  rw [firstIn?, List.map_append, List.find?_append, firstIn?, firstIn?]

/-- In the directory without a name, a file is called by its name alone. -/
theorem firstIn?_unnamed_getD : (firstIn? isFile name [""]).getD name = name := by
  have here : inside "" name = name := by simp [inside]
  rw [firstIn?, List.map_singleton, here, List.find?_singleton]
  split <;> rfl

theorem resolve_of_path {env processEnv : Environment} {path : String}
    (single : ¬ 1 < (Text.pathComponents name.toList).length)
    (present : env.get? SearchPath.variableName = some path) :
    resolve isFile env processEnv name =
      (firstIn? isFile name (SearchPath.split path)).getD name := by
  rw [resolve, if_neg single, searchPath, present]
  rfl

end Program

namespace Client

open Program (firstIn?)

variable {c : Client} {processEnv : Environment}

/-- A program with a name alone is the first file with that name in the directories that the client
adds, or else in those of the process, or else what the name stands for. A program with more than a
name is not looked up at all. -/
theorem additionsWin (adds : c.pathAdditions ≠ [])
    (clean : ∀ addition ∈ c.pathAdditions, ':' ∉ addition.toList)
    (notMine : c.env.get? SearchPath.variableName = none) :
    (∃ env, c.environment? processEnv = some env ∧
      ∀ isFile name, '/' ∉ name.toList →
        Program.resolve isFile env processEnv name =
          ((firstIn? isFile name c.pathAdditions).or
            (firstIn? isFile name processEnv.directories)).getD name) ∧
    ∀ isFile env name, 1 < (Text.pathComponents name.toList).length →
      Program.resolve isFile env processEnv name = name := by
  constructor
  · obtain ⟨env, made⟩ := @exists_environment? c processEnv clean
    refine ⟨env, made, fun isFile name noSlash => ?_⟩
    obtain ⟨path, present, directories⟩ := exists_path_of_environment? adds notMine made
    have single := Nat.not_lt.mpr (Text.length_pathComponents_le_one noSlash)
    rw [Program.resolve_of_path single present, directories, searched, Program.firstIn?_append]
    cases existing : processEnv.get? SearchPath.variableName with
    | some path => rw [Environment.directories, existing, Option.getD_some]
    | none =>
        have unset : firstIn? isFile name processEnv.directories = none := by
          rw [Environment.directories, existing]
          rfl
        have last := @Program.firstIn?_unnamed_getD isFile name
        rw [unset, Option.or_none]
        cases firstIn? isFile name c.pathAdditions with
        | some path => rfl
        | none => exact last
  · intro isFile env name several
    rw [Program.resolve, if_pos several]

theorem additionsWin_workshop :
    ∃ env, workshop.environment? surroundings = some env ∧
      Program.resolve ["/bin/pylsp", "/opt/tools/pylsp"].contains env surroundings "pylsp" =
        "/opt/tools/pylsp" ∧
      Program.resolve ["/usr/bin/pylsp", "/bin/pylsp"].contains env surroundings "pylsp" =
        "/bin/pylsp" ∧
      Program.resolve [].contains env surroundings "pylsp" = "pylsp" ∧
      Program.resolve (fun _ => true) env surroundings "./pylsp" = "./pylsp" := by
  obtain ⟨⟨env, made, found⟩, kept⟩ :=
    @additionsWin workshop surroundings (by decide) (by decide) (by decide)
  refine ⟨env, made, ?_, ?_, ?_, kept _ env _ (by decide)⟩
  · exact (found _ "pylsp" (by decide)).trans (by decide)
  · exact (found _ "pylsp" (by decide)).trans (by decide)
  · exact (found _ "pylsp" (by decide)).trans (by decide)

end Client

end EditorBridge
