/-!
# Editor commands

What an editor asks of the bridge. A command carries a sequence number chosen by the editor and a
request of one of five kinds: three queries about a place in a file, which are answered, and two
notices about the content of a file, which are not. Lines and offsets count from one. `Kind` knows
the name of each kind on the editor's side and its method on the server's side.
-/

namespace EditorBridge

/-- The kinds of editor commands (`CommandKind`): what is known about the symbol at a place, where
it is defined, where it is used, that a file is now open in the editor, and that the content of a
file has changed. -/
inductive Kind where
  | quickInfo
  | definition
  | references
  | openFile
  | changeFile
  deriving DecidableEq, Repr

namespace Kind

/-- Every kind (`CommandKind::ALL`). -/
def all : List Kind :=
  [quickInfo, definition, references, openFile, changeFile]

/-- The name of the kind in editor messages (`CommandKind::as_str`). -/
def name : Kind → String
  | quickInfo => "quickinfo"
  | definition => "definition"
  | references => "references"
  | openFile => "open"
  | changeFile => "change"

/-- The server method that a command of the kind becomes (`to_lsp_method`). -/
def method : Kind → String
  | quickInfo => "textDocument/hover"
  | definition => "textDocument/definition"
  | references => "textDocument/references"
  | openFile => "textDocument/didOpen"
  | changeFile => "textDocument/didChange"

/-- Whether a command of the kind is answered (`CommandKind::expects_response`). -/
def isQuery : Kind → Bool
  | quickInfo | definition | references => true
  | openFile | changeFile => false

/-- The kind with a name (`CommandKind::from_name`). -/
def ofName? (s : String) : Option Kind :=
  all.find? (·.name == s)

/-- The kind with a server method (`from_lsp_method`). -/
def ofMethod? (s : String) : Option Kind :=
  all.find? (·.method == s)

theorem ofName?_name (k : Kind) : ofName? k.name = some k := by
  cases k <;> decide

theorem ofMethod?_method (k : Kind) : ofMethod? k.method = some k := by
  cases k <;> decide

end Kind

/-- A place in a file (`FileLocationArgs`). The line and the offset in it are counted from one. -/
structure Spot where
  file : String
  line : UInt32
  offset : UInt32
  deriving DecidableEq, Repr

/-- A file with its whole content, as the editor opened it, with its language, if the editor says,
and the version of the content, if the editor counts (`OpenArgs`). -/
structure OpenedFile where
  file : String
  text : String
  languageId : Option String
  version : Option Int32
  deriving DecidableEq, Repr

/-- A change of a file's content (`ChangeArgs`). The inserted text replaces the whole content, or
the range that the four coordinates enclose when all of them are given; they are counted from one.
The version is the one after the change, if the editor counts. -/
structure Edit where
  file : String
  insertString : String
  line : Option UInt32
  offset : Option UInt32
  endLine : Option UInt32
  endOffset : Option UInt32
  version : Option Int32
  deriving DecidableEq, Repr

/-- What a command asks for (`Command`). -/
inductive Request where
  | quickInfo (spot : Spot)
  | definition (spot : Spot)
  | references (spot : Spot)
  | openFile (opened : OpenedFile)
  | changeFile (edit : Edit)
  deriving DecidableEq, Repr

/-- The kind of a request (`Command::kind`). -/
def Request.kind : Request → Kind
  | quickInfo _ => .quickInfo
  | definition _ => .definition
  | references _ => .references
  | openFile _ => .openFile
  | changeFile _ => .changeFile

/-- The file that a request is about (`Command::file`). -/
def Request.file : Request → String
  | quickInfo spot | definition spot | references spot => spot.file
  | openFile opened => opened.file
  | changeFile edit => edit.file

/-- A command of the editor, with the number that its answer refers to (`LegacyCommand`). -/
structure Command where
  seq : Int64
  request : Request
  deriving DecidableEq, Repr

/-- The kind of a command (`LegacyCommand::kind`). -/
def Command.kind (c : Command) : Kind :=
  c.request.kind

end EditorBridge
