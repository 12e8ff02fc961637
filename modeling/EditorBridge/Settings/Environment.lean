import EditorBridge.Text.Split

/-!
# Environments and search paths

The variables that a process starts with, by name, and the list of directories in which programs
are looked up. A search path is written with a colon between two directories, so no directory of a
search path can have a colon in its name; the empty text is the path of one directory without a
name.
-/

namespace EditorBridge

/-- Variables with their values, no name twice. -/
abbrev Environment := List (String × String)

namespace Environment

/-- The value of a variable. -/
def get? (name : String) : Environment → Option String
  | [] => none
  | (key, value) :: rest => if key = name then some value else get? name rest

/-- The environment with the value of a variable set. -/
def set (name value : String) : Environment → Environment
  | [] => [(name, value)]
  | (key, old) :: rest =>
      if key = name then (name, value) :: rest else (key, old) :: set name value rest

/-- The environment with other variables set. -/
def extend (env other : Environment) : Environment :=
  other.foldl (fun env entry => set entry.1 entry.2 env) env

theorem get?_set_self (name value : String) (env : Environment) :
    get? name (set name value env) = some value := by
  induction env with
  | nil => simp [set, get?]
  | cons entry rest ih =>
      obtain ⟨key, old⟩ := entry
      simp only [set]
      split
      · simp [get?]
      · next different => simp [get?, different, ih]

theorem get?_set_of_ne {name other : String} (value : String) (env : Environment)
    (different : other ≠ name) : get? other (set name value env) = get? other env := by
  induction env with
  | nil => simp [set, get?, Ne.symm different]
  | cons entry rest ih =>
      obtain ⟨key, old⟩ := entry
      simp only [set]
      split
      · next same => subst same; simp [get?, Ne.symm different]
      · simp [get?, ih]

end Environment

namespace SearchPath

/-- The name of the variable that holds the search path (`ClientConfig::environment`). -/
def variableName : String := "PATH"

/-- The directories of a search path. -/
def split (path : String) : List String :=
  (Text.split (· == ':') path.toList).map String.ofList

/-- The search path with these directories, if each of them can be in one. -/
def join? (directories : List String) : Option String :=
  if directories.any (·.toList.contains ':') then none
  else some (String.ofList (Text.join ':' (directories.map String.toList)))

end SearchPath

end EditorBridge
