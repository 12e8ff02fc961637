import EditorBridge.Settings.Environment
import EditorBridge.Text.Components

/-!
# Looking up programs

Where the program with a name is. A name with more than one component says that itself. Any other
name is looked up in the directories of the search path, and stands for itself where it is not
found.
-/

namespace EditorBridge.Program

/-- The path of something inside a directory. -/
def inside (directory name : String) : String :=
  if name.toList.head? = some '/' || directory.isEmpty then name
  else if directory.toList.getLast? = some '/' then directory ++ name
  else directory ++ "/" ++ name

/-- The places where a program is looked up, in order (`candidates`). -/
def candidates (searchPath name : String) : List String :=
  (SearchPath.split searchPath).map (inside · name)

/-- The search path of a program that gets an environment (`resolve_program`): its own, or the one
of the process that starts it. -/
def searchPath (env processEnv : Environment) : String :=
  ((env.get? SearchPath.variableName).or (processEnv.get? SearchPath.variableName)).getD ""

/-- Where the program with a name is (`resolve_program`). -/
def resolve (isFile : String → Bool) (env processEnv : Environment) (name : String) : String :=
  if 1 < (Text.pathComponents name.toList).length then name
  else ((candidates (searchPath env processEnv) name).find? isFile).getD name

end EditorBridge.Program
