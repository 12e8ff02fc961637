import EditorBridge.Text.Components
import EditorBridge.Uri.Locator
import EditorBridge.Uri.Reference

/-!
# Files and their URIs

A file is named by its absolute path towards the editor and by a URI towards a server.
`ofFile?` writes the URI of a path, `toFile?` reads the path out of a URI. A URI holds the names in
the path and nothing else, so what comes back is the path without empty parts and single points.
-/

namespace EditorBridge.Uri

/-- Whether a byte of a name is written as it is: a visible ASCII character that has no
meaning in the path of a URI. -/
def isPlain (b : UInt8) : Bool :=
  0x21 ≤ b && b ≤ 0x7E &&
    !("\"#%/<>?\\`".toList ++ ['{', '}']).any fun c => c.toNat == b.toNat

/-- A name as a segment of a URI. -/
def segment (name : List Char) : List Char :=
  Percent.encode isPlain (Text.Utf8.encode name)

/-- What every URI of a file starts with. -/
def filePrefix : List Char := "file://".toList

/-- The URI of a file, if its path is absolute (`filename_to_uri`). -/
def ofFile? (path : String) : Option String :=
  match path.toList with
  | '/' :: rest =>
      some (String.ofList (filePrefix ++ '/' :: Text.join '/' ((Text.pathNames rest).map segment)))
  | _ => none

/-- The bytes of the path that segments make. -/
def pathBytes (segments : List (List Char)) : List UInt8 :=
  segments.flatMap fun segment => 47 :: Percent.decode segment

/-- Whether a byte is an ASCII letter. -/
def isLetter (b : UInt8) : Bool :=
  (65 ≤ b && b ≤ 90) || (97 ≤ b && b ≤ 122)

/-- The bytes with a slash after them if they end in the name of a drive. -/
def closeDrive (bytes : List UInt8) : List UInt8 :=
  match bytes.reverse with
  | mark :: letter :: _ :: _ =>
      if isLetter letter && (mark = 58 || mark = 124) then bytes ++ [47] else bytes
  | _ => bytes

/-- The path that a locator gives, if it is on this machine. -/
def Locator.toPath? (l : Locator) : Option String :=
  match l.host with
  | .elsewhere => none
  | _ => some (String.ofList (Text.Utf8.decodeLossy (closeDrive (pathBytes l.path))))

/-- The path of the file that a URI names (`uri_to_filename`). -/
def toFile? (uri : String) : Option String :=
  (Locator.ofChars? uri.toList).bind Locator.toPath?

/-- The URI of a file for a message to a server (`lsp_uri`): the one of `ofFile?`, provided that it
is a URI in the narrow sense too. -/
def ofFileStrict? (path : String) : Option String :=
  (ofFile? path).filter fun uri => Reference.isReference uri.toList

end EditorBridge.Uri
