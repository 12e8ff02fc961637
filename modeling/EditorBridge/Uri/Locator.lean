import EditorBridge.Uri.Host

/-!
# Locators

A URI taken apart the way the web does it: forgiving about blanks, slashes and letter case, with
the dots of its path resolved. Only two parts of a locator matter to a reader of files, the host
and the path; user names, ports, query and fragment are checked and dropped. A path is the list of
its segments, so the path `/a/b/` is `a`, `b` and an empty segment. A URI without a path of
segments, such as `data:text/plain`, is no locator.
-/

namespace EditorBridge.Uri

/-- The schemes, as far as their syntax differs: files, the other schemes that the web treats alike,
and every other one. -/
inductive Scheme where
  | file
  | web
  | other
  deriving DecidableEq, Repr

namespace Scheme

/-- The scheme with a lower-case name. -/
def ofName (name : List Char) : Scheme :=
  if name = "file".toList then file
  else if ["http", "https", "ws", "wss", "ftp"].any (·.toList == name) then web
  else other

/-- Whether a backslash separates segments too. -/
def isSpecial (s : Scheme) : Bool :=
  s != other

/-- Whether a character separates segments. -/
def isSlash (s : Scheme) (c : Char) : Bool :=
  c == '/' || (c == '\\' && s.isSpecial)

/-- Whether a character ends the host and what stands around it. -/
def endsAuthority (s : Scheme) (c : Char) : Bool :=
  s.isSlash c || c == '?' || c == '#'

end Scheme

/-- Where something is: a machine, and the segments of a path on it. -/
structure Locator where
  host : Host
  path : List (List Char)
  deriving DecidableEq, Repr

namespace Locator

/-- Whether a character may stand at the ends of a URI without being part of it. -/
def isMargin (c : Char) : Bool :=
  c.toNat ≤ 0x20

/-- The text without margins and without tabs and line ends. -/
def strip (s : List Char) : List Char :=
  (((s.dropWhile isMargin).reverse.dropWhile isMargin).reverse).filter fun c =>
    c != '\t' && c != '\n' && c != '\r'

/-- Whether a character may stand in the name of a scheme after the first letter. -/
def isSchemeChar (c : Char) : Bool :=
  c.isAlphanum || c == '+' || c == '-' || c == '.'

/-- The lower-case name of the scheme, and what follows its colon. -/
def splitScheme? (s : List Char) : Option (List Char × List Char) :=
  let name := s.takeWhile isSchemeChar
  match name, s.dropWhile isSchemeChar with
  | first :: _, ':' :: rest => if first.isAlpha then some (name.map Char.toLower, rest) else none
  | _, _ => none

/-- The text before the query and the fragment. -/
def beforeQuery (s : List Char) : List Char :=
  s.takeWhile fun c => c != '?' && c != '#'

/-! ### Paths -/

/-- The text with every escaped point as a point. -/
def unescapeDots : List Char → List Char
  | '%' :: '2' :: 'e' :: rest => '.' :: unescapeDots rest
  | '%' :: '2' :: 'E' :: rest => '.' :: unescapeDots rest
  | c :: rest => c :: unescapeDots rest
  | [] => []

/-- Whether a segment stands for the one it is in. -/
def isHere (segment : List Char) : Bool :=
  unescapeDots segment == ['.']

/-- Whether a segment stands for the one above. -/
def isAbove (segment : List Char) : Bool :=
  unescapeDots segment == ['.', '.']

/-- Whether a segment is the name of a drive: a letter and a colon or bar. -/
def isDrive : List Char → Bool
  | [letter, mark] => letter.isAlpha && (mark == ':' || mark == '|')
  | _ => false

/-- Whether going up stops at a segment. Where the backslash separates nothing, it still ends the
name of a drive. -/
def isBarrier (segment : List Char) : Bool :=
  isDrive (segment.takeWhile (· != '\\'))

/-- The name of a drive with a colon. -/
def withColon (segment : List Char) : List Char :=
  segment.take 1 ++ [':']

/-- Goes one segment up from the segments walked so far, the last one first. -/
def goUp : List (List Char) → List (List Char)
  | [] => []
  | last :: before => if isBarrier last then last :: before else before

/-- Walks along segments. The first argument says whether the name of a drive at the root counts,
the second holds the segments walked so far, the last one first. Says also whether such a name came
up, because it makes the host void. -/
def walk (drives : Bool) (done : List (List Char)) : List (List Char) → List (List Char) × Bool
  | [] => (done.reverse, false)
  | segment :: rest =>
      let closing : List (List Char) := if rest.isEmpty then [[]] else []
      if isAbove segment then walk drives (closing ++ goUp done) rest
      else if isHere segment then walk drives (closing ++ done) rest
      else if drives && done.isEmpty && isDrive segment then
        ((walk drives (withColon segment :: done) rest).1, true)
      else walk drives (segment :: done) rest

/-- A path without the empty segments at its start. -/
def dropEmpty (path : List (List Char)) : List (List Char) :=
  match path.dropWhile List.isEmpty with
  | [] => [[]]
  | filled => filled

/-- The locator of a file with a host and the text of a path. -/
def ofFilePath (host : Host) (path : List Char) : Locator :=
  let (path, hasDrive) := walk true [] (Text.split Scheme.file.isSlash (beforeQuery path))
  ⟨if hasDrive then .absent else host, dropEmpty path⟩

/-- The locator of any other scheme with a host and the text of a path. -/
def ofPath (scheme : Scheme) (host : Host) (path : List Char) : Locator :=
  ⟨host, (walk false [] (Text.split scheme.isSlash (beforeQuery path))).1⟩

/-! ### Hosts and what stands around them -/

/-- The text without one slash at its start. -/
def skipSlash (scheme : Scheme) : List Char → List Char
  | c :: rest => if scheme.isSlash c then rest else c :: rest
  | [] => []

/-- The locator of a file whose two slashes have been read. A host that is the name of a drive is
the start of the path. Without a host, the slash after it starts an empty segment. -/
def ofFileAuthority? (s : List Char) : Option Locator :=
  let host := s.takeWhile fun c => !Scheme.file.endsAuthority c
  let rest := s.dropWhile fun c => !Scheme.file.endsAuthority c
  if isDrive host then some (ofFilePath .absent s)
  else if host.isEmpty then some (ofFilePath .absent rest)
  else
    (Host.ofDomain? host).map fun parsed =>
      match parsed with
      | .elsewhere => ofFilePath .elsewhere (skipSlash .file rest)
      | _ => ofFilePath .absent rest

/-- The locator of a file. -/
def ofFile? (s : List Char) : Option Locator :=
  match s with
  | a :: b :: rest =>
      if Scheme.file.isSlash a then
        if Scheme.file.isSlash b then ofFileAuthority? rest
        else some (ofFilePath .absent (b :: rest))
      else some (ofFilePath .absent (a :: b :: rest))
  | _ => some (ofFilePath .absent (skipSlash .file s))

/-- What stands before and after the last at-sign, if there is one. -/
def splitUser (authority : List Char) : Option (List Char) × List Char :=
  let host := (authority.reverse.takeWhile (· != '@')).reverse
  if authority.contains '@' then
    (some (authority.take (authority.length - host.length - 1)), host)
  else (none, authority)

/-- What stands before the first colon outside brackets, and what stands after it. -/
def splitService (inBrackets : Bool) : List Char → List Char × Option (List Char)
  | [] => ([], none)
  | c :: rest =>
      if c == ':' && !inBrackets then ([], some rest)
      else
        let inBrackets := if c == '[' then true else if c == ']' then false else inBrackets
        let (host, service) := splitService inBrackets rest
        (c :: host, service)

/-- Whether a text is the number of a service, or nothing. -/
def isServiceNumber (s : List Char) : Bool :=
  s.all Numeral.isDigit && Numeral.ofDigits s ≤ 65535

/-- The locator of a scheme other than files, after the slashes in front of its host. -/
def ofAuthority? (scheme : Scheme) (s : List Char) : Option Locator :=
  let authority := s.takeWhile fun c => !scheme.endsAuthority c
  let rest := s.dropWhile fun c => !scheme.endsAuthority c
  let (user, hostAndService) := splitUser authority
  let (host, service) := splitService false hostAndService
  let misplacedUser := user == some [] && hostAndService.isEmpty && !rest.isEmpty
  let namesUser := user.any fun u => !u.isEmpty && u != [':']
  if misplacedUser || !service.all isServiceNumber then none
  else if scheme.isSpecial then
    (Host.ofDomain? host).map fun host => ofPath scheme host (skipSlash scheme rest)
  else
    match rest, Host.ofOpaque? host with
    | '/' :: path, some host =>
        if host == .absent && (service.isSome || namesUser) then none
        else some (ofPath scheme host path)
    | _, _ => none

/-- The locator that a text gives. -/
def ofChars? (s : List Char) : Option Locator :=
  (splitScheme? (strip s)).bind fun (name, rest) =>
    let scheme := Scheme.ofName name
    match scheme with
    | .file => ofFile? rest
    | .web => ofAuthority? scheme (rest.dropWhile scheme.isSlash)
    | .other =>
        match rest with
        | '/' :: '/' :: rest => ofAuthority? scheme rest
        | '/' :: path => some (ofPath scheme .absent path)
        | _ => none

end Locator

end EditorBridge.Uri
