import TextTemplate.Text.CharTable

/-!
# Character classes

The classes that the template language reads by: blanks separate words, word characters make up names,
decimal digits make up numbers. Each class spells out its ASCII part and takes the rest from a table.
-/

namespace TextTemplate.Text

/-- Whether a code point lies in one of the inclusive ranges. -/
def covers (ranges : List (Nat × Nat)) (n : Nat) : Bool :=
  ranges.any fun r => r.1 ≤ n && n ≤ r.2

/-- Blanks: the characters that separate words and are trimmed from the ends of a text. -/
def isBlank (c : Char) : Bool :=
  let n := c.toNat
  (9 ≤ n && n ≤ 13) || (28 ≤ n && n ≤ 32) || n == 0x85 || n == 0xA0 || n == 0x1680 ||
    (0x2000 ≤ n && n ≤ 0x200A) || n == 0x2028 || n == 0x2029 || n == 0x202F || n == 0x205F || n == 0x3000

/-- Characters that end a line. -/
def isLineEnd (c : Char) : Bool :=
  let n := c.toNat
  (10 ≤ n && n ≤ 13) || (28 ≤ n && n ≤ 30) || n == 0x85 || n == 0x2028 || n == 0x2029

def isAscii (c : Char) : Bool := c.toNat < 128

def isLetter (c : Char) : Bool :=
  if isAscii c then c.isAlpha else covers CharTable.letters c.toNat

/-- Word characters: letters, characters with a numeric value, and the underscore. -/
def isWord (c : Char) : Bool :=
  if isAscii c then c.isAlphanum || c == '_'
  else covers CharTable.letters c.toNat || covers CharTable.numerals c.toNat

/-- The value of a decimal digit of any script. -/
def digit? (c : Char) : Option Nat :=
  if isAscii c then
    if c.isDigit then some (c.toNat - '0'.toNat) else none
  else
    (CharTable.zeros.find? fun z => z ≤ c.toNat && c.toNat < z + 10).map (c.toNat - ·)

def isDecimal (c : Char) : Bool := (digit? c).isSome

/-- Digits in the wider sense, superscripts and circled digits included. -/
def isDigitLike (c : Char) : Bool :=
  isDecimal c || (!isAscii c && covers CharTable.superDigits c.toNat)

/-- Characters that a quoted text shows as themselves. -/
def isPrintable (c : Char) : Bool :=
  if isAscii c then 32 ≤ c.toNat && c.toNat < 127 else !covers CharTable.unprintable c.toNat

/-- Whether a text is non-empty and made of characters of one class only. -/
def allOf (p : Char → Bool) (s : List Char) : Bool := !s.isEmpty && s.all p

end TextTemplate.Text
