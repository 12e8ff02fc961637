import EditorBridge.Text.Split

/-!
# Components of paths

A path is a text with slashes. Its names are what counts of the parts between them, and its
components are the names together with what the path starts from. Paths with the same components
are spellings of one path: slashes that follow each other, single points and a slash at the end
make no difference, but two points are a name like any other.
-/

namespace EditorBridge.Text

/-- The names in a path: its parts, without empty ones and single points. -/
def pathNames (path : List Char) : List (List Char) :=
  (split (· == '/') path).filter fun part => !part.isEmpty && part != ['.']

/-- The components of a path: its names, after the slash or the single point at its start. -/
def pathComponents (path : List Char) : List (List Char) :=
  match split (· == '/') path with
  | [] :: _ :: _ => ['/'] :: pathNames path
  | ['.'] :: _ => ['.'] :: pathNames path
  | _ => pathNames path

/-- The name of the file that a path leads to, if its last component is a name. -/
def fileName? (path : List Char) : Option (List Char) :=
  (pathComponents path).getLast?.filter fun name =>
    name != ['/'] && name != ['.'] && name != ['.', '.']

/-- The extension of the file that a path leads to: what follows the last point of its name, unless
that is the first character. -/
def extension? (path : List Char) : Option (List Char) :=
  (fileName? path).bind fun name =>
    match name.reverse.dropWhile (· != '.') with
    | _ :: _ :: _ => some (name.reverse.takeWhile (· != '.')).reverse
    | _ => none

end EditorBridge.Text
