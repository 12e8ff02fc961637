/-!
# Latin letters in disguise

Characters that stand for Latin letters when names are compared: letters of either case, and the
compatibility forms of letters (full-width, circled, squared, mathematical, superscript and
subscript ones, and a few more). `plain` gives the lower-case letters that a character stands for.
The list of compatibility forms of more than one letter holds those that a host name which this
library looks for can contain.
-/

namespace EditorBridge.Text.Letter

/-- The lower-case letter at a place in the alphabet, counted from zero. -/
def ofIndex (n : Nat) : Char :=
  Char.ofNat (97 + n % 26)

/-- The first characters of the alphabets that come as a whole. -/
def alphabets : List Nat :=
  [0x41, 0x61, 0x24B6, 0x24D0, 0xFF21, 0xFF41, 0x1F130]

/-- The places in the run of mathematical alphabets that no letter takes. -/
def gaps : List Nat :=
  [0x1D455, 0x1D49D, 0x1D4A0, 0x1D4A1, 0x1D4A3, 0x1D4A4, 0x1D4A7, 0x1D4A8, 0x1D4AD, 0x1D4BA,
    0x1D4BC, 0x1D4C4, 0x1D506, 0x1D50B, 0x1D50C, 0x1D515, 0x1D51D, 0x1D53A, 0x1D53F, 0x1D545,
    0x1D547, 0x1D548, 0x1D549, 0x1D551]

/-- The compatibility forms of single letters outside the alphabets. -/
def singles : List (Char × List Nat) :=
  [
    ('a', [0xAA, 0x1D2C, 0x1D43, 0x2090]),
    ('b', [0x1D2E, 0x1D47, 0x212C]),
    ('c', [0x1D9C, 0x2102, 0x212D, 0x216D, 0x217D, 0xA7F2, 0x1F12B]),
    ('d', [0x1D30, 0x1D48, 0x2145, 0x2146, 0x216E, 0x217E]),
    ('e', [0x1D31, 0x1D49, 0x2091, 0x212F, 0x2130, 0x2147]),
    ('f', [0x1DA0, 0x2131, 0xA7F3]),
    ('g', [0x1D33, 0x1D4D, 0x210A]),
    ('h', [0x2B0, 0x1D34, 0x2095, 0x210B, 0x210C, 0x210D, 0x210E]),
    ('i', [0x1D35, 0x1D62, 0x2071, 0x2110, 0x2111, 0x2139, 0x2148, 0x2160, 0x2170]),
    ('j', [0x2B2, 0x1D36, 0x2149, 0x2C7C]),
    ('k', [0x1D37, 0x1D4F, 0x2096, 0x212A]),
    ('l', [0x2E1, 0x1D38, 0x2097, 0x2112, 0x2113, 0x216C, 0x217C]),
    ('m', [0x1D39, 0x1D50, 0x2098, 0x2133, 0x216F, 0x217F]),
    ('n', [0x1D3A, 0x207F, 0x2099, 0x2115]),
    ('o', [0xBA, 0x1D3C, 0x1D52, 0x2092, 0x2134]),
    ('p', [0x1D3E, 0x1D56, 0x209A, 0x2119]),
    ('q', [0x211A, 0xA7F4, 0x107A5]),
    ('r', [0x2B3, 0x1D3F, 0x1D63, 0x211B, 0x211C, 0x211D, 0x1F12C]),
    ('s', [0x17F, 0x2E2, 0x209B]),
    ('t', [0x1D40, 0x1D57, 0x209C]),
    ('u', [0x1D41, 0x1D58, 0x1D64]),
    ('v', [0x1D5B, 0x1D65, 0x2164, 0x2174, 0x2C7D]),
    ('w', [0x2B7, 0x1D42]),
    ('x', [0x2E3, 0x2093, 0x2169, 0x2179]),
    ('y', [0x2B8]),
    ('z', [0x1DBB, 0x2124, 0x2128])
  ]

/-- The compatibility forms of several letters. -/
def groups : List (Nat × List Char) :=
  [(0x3388, ['c', 'a', 'l']), (0xFB05, ['s', 't']), (0xFB06, ['s', 't'])]

/-- Whether a character vanishes when names are compared. -/
def isIgnored (c : Char) : Bool :=
  let n := c.toNat
  n == 0xAD || n == 0x34F || (0x180B ≤ n && n ≤ 0x180D) || n == 0x180F || n == 0x200B ||
    n == 0x2060 || n == 0x2064 || (0xFE00 ≤ n && n ≤ 0xFE0F) || n == 0xFEFF ||
    (0xE0100 ≤ n && n ≤ 0xE01EF)

/-- The single letter that a character stands for. -/
def letter? (c : Char) : Option Char :=
  let n := c.toNat
  match alphabets.find? fun start => start ≤ n && n < start + 26 with
  | some start => some (ofIndex (n - start))
  | none =>
      if 0x1D400 ≤ n && n < 0x1D6A4 then
        if gaps.contains n then none else some (ofIndex (n - 0x1D400))
      else (singles.find? fun form => form.2.contains n).map Prod.fst

/-- The letters that a character stands for when names are compared; a character that stands for
no letter is left as it is. -/
def plain (c : Char) : List Char :=
  if isIgnored c then []
  else
    match letter? c with
    | some letter => [letter]
    | none => ((groups.find? fun form => form.1 = c.toNat).map Prod.snd).getD [c]

end EditorBridge.Text.Letter
