import EditorBridge.Uri.Host

/-!
# URI references

The narrow grammar of URIs, which the members of server messages have to follow: letters, digits
and some marks, everything else escaped. A reference may lack its scheme, its host, or everything.
-/

namespace EditorBridge.Uri.Reference

/-- Whether a character needs no escape anywhere. -/
def isUnreserved (c : Char) : Bool :=
  c.isAlphanum || c == '-' || c == '.' || c == '_' || c == '~'

/-- Whether a character separates parts of a component. -/
def isSubDelimiter (c : Char) : Bool :=
  "!$&'()*+,;=".toList.contains c

/-- Whether a text consists of escapes and of characters that `admits` takes. -/
def consistsOf (admits : Char → Bool) : List Char → Bool
  | [] => true
  | '%' :: high :: low :: rest =>
      Text.Hex.isDigit high && Text.Hex.isDigit low && consistsOf admits rest
  | c :: rest => c != '%' && admits c && consistsOf admits rest

/-- Whether a character may stand in a segment of a path. -/
def isSegmentChar (c : Char) : Bool :=
  isUnreserved c || isSubDelimiter c || c == ':' || c == '@'

/-- Whether a text is a path. -/
def isPath (s : List Char) : Bool :=
  consistsOf (fun c => isSegmentChar c || c == '/') s

/-- Whether a text is a query or a fragment. -/
def isTail (s : List Char) : Bool :=
  consistsOf (fun c => isSegmentChar c || c == '/' || c == '?') s

/-- Whether a character ends the part of a reference that names its host. -/
def endsAuthority (c : Char) : Bool :=
  c == '/' || c == '?' || c == '#'

/-- Whether a text is an address of a kind yet to come: a version after `v`, and a text. -/
def isFutureAddress (s : List Char) : Bool :=
  match s with
  | v :: rest =>
      let address := rest.dropWhile (· != '.')
      (v == 'v' || v == 'V') && (rest.takeWhile (· != '.')).all Text.Hex.isDigit &&
        !(rest.takeWhile (· != '.')).isEmpty && address.length > 1 &&
        (address.drop 1).all fun c => isUnreserved c || isSubDelimiter c || c == ':'
  | [] => false

/-- Whether a text is a host, with or without the number of a service after it. -/
def isHostAndService (s : List Char) : Bool :=
  match s with
  | '[' :: rest =>
      let address := rest.takeWhile (· != ']')
      let isService :=
        match rest.dropWhile (· != ']') with
        | [']'] => true
        | ']' :: ':' :: number => number.all Numeral.isDigit
        | _ => false
      (Host.isLongAddress address || isFutureAddress address) && isService
  | _ =>
      consistsOf (fun c => isUnreserved c || isSubDelimiter c) (s.takeWhile (· != ':')) &&
        ((s.dropWhile (· != ':')).drop 1).all Numeral.isDigit

/-- Whether a text is a user, a host and the number of a service, of which the user and the number
may be missing. -/
def isAuthority (s : List Char) : Bool :=
  match s.dropWhile (· != '@') with
  | '@' :: host =>
      consistsOf (fun c => isUnreserved c || isSubDelimiter c || c == ':')
        (s.takeWhile (· != '@')) && isHostAndService host
  | _ => isHostAndService s

/-- Whether a text is a path that may be followed by a query and a fragment. -/
def isPathAndTail (s : List Char) : Bool :=
  let path := s.takeWhile fun c => c != '?' && c != '#'
  let tail :=
    match s.dropWhile fun c => c != '?' && c != '#' with
    | '?' :: rest =>
        isTail (rest.takeWhile (· != '#')) && isTail ((rest.dropWhile (· != '#')).drop 1)
    | rest => isTail (rest.drop 1)
  isPath path && tail

/-- Whether a text is a reference after its scheme and colon. -/
def isHierarchy (s : List Char) : Bool :=
  match s with
  | '/' :: '/' :: rest =>
      isAuthority (rest.takeWhile fun c => !endsAuthority c) &&
        isPathAndTail (rest.dropWhile fun c => !endsAuthority c)
  | _ => isPathAndTail s

/-- Whether a character may stand in the name of a scheme after the first letter. -/
def isSchemeChar (c : Char) : Bool :=
  c.isAlphanum || c == '+' || c == '-' || c == '.'

/-- Whether a text is a reference. Without a scheme, the first segment of the path must not hold a
colon. -/
def isReference (s : List Char) : Bool :=
  match s.takeWhile isSchemeChar, s.dropWhile isSchemeChar with
  | first :: _, ':' :: rest => first.isAlpha && isHierarchy rest
  | _, _ =>
      isHierarchy s &&
        (s.take 2 == ['/', '/'] || !(s.takeWhile fun c => !endsAuthority c).contains ':')

end EditorBridge.Uri.Reference
