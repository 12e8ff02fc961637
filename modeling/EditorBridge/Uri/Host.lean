import EditorBridge.Numeral
import EditorBridge.Text.Letter
import EditorBridge.Text.Split
import EditorBridge.Uri.Percent

/-!
# Hosts

The host part of a URI, as far as a reader of files needs it: whether it names this machine, some
other one, or nothing at all because it is malformed. In the schemes of the web the host is a
domain that is compared by its letters, an address in square brackets, or an address in decimal;
this machine is `localhost`. In other schemes the host is taken as it is written.
-/

namespace EditorBridge.Uri

/-- What a well-formed host names: nothing if none is given, this machine, or some other one. -/
inductive Host where
  | absent
  | here
  | elsewhere
  deriving DecidableEq, Repr

namespace Host

/-- The name of this machine. -/
def localName : List Char := "localhost".toList

/-- The characters that no host contains. -/
def forbidden (c : Char) : Bool :=
  c.toNat == 0 || "\t\n\r #/:<>?@[\\]^|".toList.contains c

/-- The characters that no domain contains. -/
def forbiddenInDomain (c : Char) : Bool :=
  forbidden c || c.toNat < 0x20 || c == '%' || c.toNat == 0x7F

/-! ### Decimal addresses -/

/-- Whether a character is an octal digit. -/
def isOctal (c : Char) : Bool :=
  '0' ≤ c && c ≤ '7'

/-- The value of a part of a decimal address: decimal, octal after a zero, or hexadecimal after
`0x`; nothing after `0x` is zero. -/
def addressPart? (part : List Char) : Option Nat :=
  match part with
  | '0' :: x :: digits =>
      if x = 'x' || x = 'X' then
        if digits.all Text.Hex.isDigit then some (Text.Hex.ofDigits digits) else none
      else if (x :: digits).all isOctal then
        some ((x :: digits).foldl (fun n c => 8 * n + Numeral.digitValue c) 0)
      else none
  | _ => Numeral.run? part

/-- The parts of a domain between the points; an empty one at the end does not count. -/
def labels (domain : List Char) : List (List Char) :=
  let parts := Text.split (· == '.') domain
  if parts.getLast? = some [] then parts.dropLast else parts

/-- Whether a domain has to be read as a decimal address. -/
def endsInNumber (domain : List Char) : Bool :=
  match (labels domain).getLast? with
  | some last => !last.isEmpty && (last.all Numeral.isDigit || (addressPart? last).isSome)
  | _ => false

/-- Whether a text is a decimal address: up to four parts, of which all but the last one fit a byte
and the last one fills the bytes that are left. -/
def isAddress (domain : List Char) : Bool :=
  let parts := labels domain
  match parts.mapM addressPart? with
  | some numbers =>
      parts.length ≤ 4 && numbers.dropLast.all (· ≤ 255) &&
        numbers.getLastD 0 < Nat.pow 256 (5 - numbers.length)
  | _ => false

/-! ### Addresses in brackets -/

/-- The parts of a text before and after the first pair of colons. -/
def splitAtColons : List Char → List Char × Option (List Char)
  | ':' :: ':' :: rest => ([], some rest)
  | c :: rest =>
      let (before, after) := splitAtColons rest
      (c :: before, after)
  | [] => ([], none)

/-- Whether a part is a group of one to four hexadecimal digits. -/
def isGroup (part : List Char) : Bool :=
  1 ≤ part.length && part.length ≤ 4 && part.all Text.Hex.isDigit

/-- Whether a part is the number of a byte, without needless zeros. -/
def isByte (part : List Char) : Bool :=
  match Numeral.run? part with
  | some n => n ≤ 255 && Numeral.digits n == part
  | _ => false

/-- Whether a part is a decimal address of exactly four bytes. -/
def isQuad (part : List Char) : Bool :=
  let bytes := Text.split (· == '.') part
  bytes.length == 4 && bytes.all isByte

/-- How many groups a text of groups between colons holds; a decimal address of four bytes at its
end counts for two if it is allowed. -/
def groups? (quadAllowed : Bool) (s : List Char) : Option Nat :=
  if s.isEmpty then some 0
  else
    let parts := Text.split (· == ':') s
    let last := parts.getLastD []
    if parts.all isGroup then some parts.length
    else if quadAllowed && isQuad last && parts.dropLast.all isGroup then some (parts.length + 1)
    else none

/-- Whether a text is an address of eight groups, of which one run may be left out. -/
def isLongAddress (s : List Char) : Bool :=
  match splitAtColons s with
  | (whole, none) => groups? true whole == some 8
  | (before, some after) =>
      match groups? false before, groups? true after with
      | some n, some m => n + m ≤ 7
      | _, _ => false

/-! ### Hosts -/

/-- The host that a text between brackets gives. -/
def ofBracketed? (s : List Char) : Option Host :=
  match s.reverse with
  | ']' :: inner => if isLongAddress inner.reverse then some elsewhere else none
  | _ => none

/-- The host of a web scheme that a text gives. -/
def ofDomain? (s : List Char) : Option Host :=
  match s with
  | '[' :: rest => ofBracketed? rest
  | _ =>
      let domain := (Text.Utf8.decodeLossy (Percent.decode s)).flatMap Text.Letter.plain
      if domain.isEmpty || domain.any (fun c => forbiddenInDomain c || c == '\uFFFD') then none
      else if endsInNumber domain then if isAddress domain then some elsewhere else none
      else if domain = localName then some here
      else some elsewhere

/-- The host of any other scheme that a text gives. -/
def ofOpaque? (s : List Char) : Option Host :=
  match s with
  | [] => some absent
  | '[' :: rest => ofBracketed? rest
  | _ =>
      if s.any forbidden then none
      else if s = localName then some here
      else some elsewhere

end Host

end EditorBridge.Uri
