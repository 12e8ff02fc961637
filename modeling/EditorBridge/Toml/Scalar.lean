import EditorBridge.Binary64.Scan
import EditorBridge.Settings.Basic
import EditorBridge.Text.Hex
import EditorBridge.Text.Split

/-!
# TOML values without quotes

Numbers, truth values, dates and times: everything that is written as one run of characters.
Digits may be grouped by single underscores. A date or a time becomes a text in its normal form.
-/

namespace EditorBridge.Toml

/-- The digits of a numeral whose groups are separated by single underscores. -/
def ungroup? (admits : Char → Bool) (s : List Char) : Option (List Char) :=
  let groups := Text.split (· == '_') s
  if groups.all fun group => !group.isEmpty && group.all admits then some groups.flatten else none

/-- The digits of a decimal numeral without needless zeros in front. -/
def decimal? (s : List Char) : Option (List Char) :=
  (ungroup? Numeral.isDigit s).filter fun digits => digits.head? != some '0' || digits.length = 1

/-- The sign of a number, true for a minus sign, and what follows it. -/
def splitSign : List Char → Bool × List Char
  | '-' :: rest => (true, rest)
  | '+' :: rest => (false, rest)
  | s => (false, s)

/-- An integer of 64 bits. -/
def bounded? (n : Int) : Option Setting :=
  if Int64.minValue.toInt ≤ n && n ≤ Int64.maxValue.toInt then some (.int n) else none

/-- The value of digits in a base. -/
def ofDigits (base : Nat) (digits : List Char) : Nat :=
  digits.foldl (fun n c => base * n + (Text.Hex.value? c).getD 0) 0

/-- Reads digits in a base. -/
def based? (base : Nat) (s : List Char) : Option Setting :=
  (ungroup? (fun c => (Text.Hex.value? c).any (· < base)) s).bind fun digits =>
    bounded? (ofDigits base digits)

/-- Reads an integer. -/
def integer? (s : List Char) : Option Setting :=
  match s with
  | '0' :: 'x' :: digits => based? 16 digits
  | '0' :: 'o' :: digits => based? 8 digits
  | '0' :: 'b' :: digits => based? 2 digits
  | _ =>
      let (negative, digits) := splitSign s
      (decimal? digits).bind fun digits =>
        let n : Int := Numeral.ofDigits digits
        bounded? (if negative then -n else n)

/-- Reads an exponent after its letter. -/
def exponent? (s : List Char) : Option Int :=
  let (negative, digits) := splitSign s
  (ungroup? Numeral.isDigit digits).map fun digits =>
    let n : Int := Numeral.ofDigits digits
    if negative then -n else n

/-- Whether a character starts an exponent. -/
def isExponentMark (c : Char) : Bool :=
  c == 'e' || c == 'E'

/-- Reads what follows the digits in front of a number with a fractional part: a fraction, an
exponent, or both. -/
def fractionAndExponent? (s : List Char) : Option (Option (List Char) × Option Int) :=
  let exponent (s : List Char) : Option (Option Int) :=
    match s with
    | [] => some none
    | _ :: rest => (exponent? rest).map some
  match s with
  | '.' :: rest =>
      (ungroup? Numeral.isDigit (rest.takeWhile fun c => !isExponentMark c)).bind fun fraction =>
        (exponent (rest.dropWhile fun c => !isExponentMark c)).map (some fraction, ·)
  | _ :: rest => (exponent? rest).map fun e => (none, some e)
  | [] => none

/-- Reads a number with a fractional part; one that is too great is refused. -/
def amount? (s : List Char) : Option Setting :=
  let (negative, rest) := splitSign s
  if rest = "inf".toList then some (.amount (.infinite negative))
  else if rest = "nan".toList then some (.amount .undefined)
  else
    let endsWhole (c : Char) : Bool := c == '.' || isExponentMark c
    (decimal? (rest.takeWhile fun c => !endsWhole c)).bind fun whole =>
      (fractionAndExponent? (rest.dropWhile fun c => !endsWhole c)).bind fun tail =>
        (Binary64.exact ⟨negative, whole, tail.1, tail.2⟩).map fun x => .amount (.finite x)

/-! ### Dates and times -/

/-- Reads a numeral of two digits. -/
def two? : List Char → Option (Nat × List Char)
  | a :: b :: rest => (Numeral.run? [a, b]).map (·, rest)
  | _ => none

/-- A number with two digits. -/
def twoDigits (n : Nat) : List Char :=
  [Numeral.digitChar (n / 10 % 10), Numeral.digitChar (n % 10)]

/-- The number of days in a month. -/
def daysIn (year month : Nat) : Nat :=
  if month = 2 then
    if year % 4 = 0 && (year % 100 != 0 || year % 400 = 0) then 29 else 28
  else if [4, 6, 9, 11].contains month then 30
  else 31

/-- Reads a date, and gives it with what follows. -/
def date? : List Char → Option (List Char × List Char)
  | a :: b :: c :: d :: '-' :: e :: f :: '-' :: g :: h :: rest =>
      match Numeral.run? [a, b, c, d], Numeral.run? [e, f], Numeral.run? [g, h] with
      | some year, some month, some day =>
          if 1 ≤ month && month ≤ 12 && 1 ≤ day && day ≤ daysIn year month then
            some ([a, b, c, d, '-', e, f, '-', g, h], rest)
          else none
      | _, _, _ => none
  | _ => none

/-- The digits of a second's fraction in normal form: at most nine, no zeros at the end, at least
one. -/
def secondFraction (digits : List Char) : List Char :=
  match ((digits.take 9).reverse.dropWhile (· == '0')).reverse with
  | [] => ['0']
  | kept => kept

/-- Reads the seconds of a time, which may be missing, and gives them in normal form. -/
def seconds? : List Char → Option (List Char × List Char)
  | ':' :: rest =>
      (two? rest).bind fun (second, rest) =>
        if 60 < second then none
        else
          let shown := ':' :: twoDigits second
          match rest with
          | '.' :: rest =>
              match rest.takeWhile Numeral.isDigit with
              | [] => none
              | digits =>
                  some (shown ++ '.' :: secondFraction digits, rest.dropWhile Numeral.isDigit)
          | _ => some (shown, rest)
  | rest => some ([], rest)

/-- Reads a time of day. -/
def time? (s : List Char) : Option (List Char × List Char) :=
  (two? s).bind fun (hour, rest) =>
    match rest with
    | ':' :: rest =>
        (two? rest).bind fun (minute, rest) =>
          if 23 < hour || 59 < minute then none
          else (seconds? rest).map fun (seconds, rest) =>
            (twoDigits hour ++ ':' :: twoDigits minute ++ seconds, rest)
    | _ => none

/-- Reads the offset of a time from the universal one, which may be missing. -/
def offset? (s : List Char) : Option (List Char) :=
  match s with
  | [] => some []
  | ['Z'] | ['z'] => some ['Z']
  | sign :: rest =>
      if sign != '+' && sign != '-' then none
      else
        (two? rest).bind fun (hour, rest) =>
          match rest with
          | ':' :: rest =>
              (two? rest).bind fun (minute, rest) =>
                if rest.isEmpty && minute ≤ 59 && hour * 60 + minute ≤ 24 * 60 then
                  let shown := if hour = 0 && minute = 0 then '+' else sign
                  some (shown :: twoDigits hour ++ ':' :: twoDigits minute)
                else none
          | _ => none

/-- Reads a date, a time, or both, in normal form. -/
def moment? (s : List Char) : Option Setting :=
  let shown : Option (List Char) :=
    match date? s with
    | some (date, []) => some date
    | some (date, mark :: rest) =>
        if mark = 'T' || mark = 't' || mark = ' ' then
          (time? rest).bind fun (time, rest) =>
            (offset? rest).map fun offset => date ++ 'T' :: time ++ offset
        else none
    | none =>
        match time? s with
        | some (time, []) => some time
        | _ => none
  shown.map fun s => .text (String.ofList s)

/-- Reads a value without quotes. -/
def scalar? (s : List Char) : Option Setting :=
  if s = "true".toList then some (.bool true)
  else if s = "false".toList then some (.bool false)
  else
    match integer? s with
    | some v => some v
    | none =>
        match amount? s with
        | some v => some v
        | none => moment? s

end EditorBridge.Toml
