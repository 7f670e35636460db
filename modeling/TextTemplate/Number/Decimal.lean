import TextTemplate.Number.Double
import TextTemplate.Text.Quoted

/-!
# Decimal text of floating-point numbers

Writing takes the fewest significant digits that read back as the same number and, of those, the nearest;
numbers from 10⁻⁴ up to 10¹⁶ are written positionally and the others with an exponent. Reading accepts an
optional sign, digits with an optional point, and an optional exponent.
-/

namespace TextTemplate.Double

open Text

/-- Compare `d · 10^j` with `x · 2^q`. -/
private def orderScaled (d : Nat) (j : Int) (x : Nat) (q : Int) : Ordering :=
  compare (d * powerOfTen j.toNat * powerOfTwo (-q).toNat)
    (x * powerOfTwo q.toNat * powerOfTen (-j).toNat)

/-- Four times the significand with the ends of the interval of reals that round to the number, all in
units of a quarter of the last place. The interval is shorter below a power of two. -/
private def interval (m : Nat) (q : Int) : Nat × Nat × Nat :=
  let below := if m = powerOfTwo 52 && q > leastExponent then 1 else 2
  (4 * m - below, 4 * m, 4 * m + 2)

/-- Whether `d · 10^j` rounds to `m · 2^q`; the ends of the interval count if the significand is even. -/
private def readsBack (m : Nat) (q : Int) (d : Nat) (j : Int) : Bool :=
  let (low, _, high) := interval m q
  let atLow := orderScaled d j low (q - 2)
  let atHigh := orderScaled d j high (q - 2)
  let closed := m % 2 == 0
  (atLow == .gt || (closed && atLow == .eq)) && (atHigh == .lt || (closed && atHigh == .eq))

/-- How many digits stand before the point: the `k` with `10^(k-1) ≤ m · 2^q < 10^k`. -/
private def pointPosition (m : Nat) (q : Int) : Int :=
  let num := m * powerOfTwo q.toNat
  let den := powerOfTwo (-q).toNat
  let estimate : Int := ((Nat.toDigits 10 num).length : Int) - (Nat.toDigits 10 den).length
  if num * powerOfTen (-estimate).toNat < den * powerOfTen estimate.toNat then estimate else estimate + 1

/-- Of the two neighbours of `m · 2^q` on the grid of multiples of `10^j`, the one that reads back; of two
that do, the nearer, and of two equally near the even one. -/
private def onGrid? (m : Nat) (q : Int) (j : Int) : Option Nat :=
  let num := m * powerOfTwo q.toNat * powerOfTen (-j).toNat
  let den := powerOfTwo (-q).toNat * powerOfTen j.toNat
  let low := num / den
  let nearest := roundDiv num den
  match readsBack m q low j, readsBack m q (low + 1) j with
  | true, true => some nearest
  | true, false => some low
  | false, true => some (low + 1)
  | false, false => none

/-- The fewest digits of a positive number that read back, with the position of the point. -/
def shortestDigits (m : Nat) (q : Int) : List Char × Int :=
  let k := pointPosition m q
  let found := (List.range 17).findSome? fun n =>
    let j := k - (n + 1 : Nat)
    (onGrid? m q j).map fun d => (d, j)
  let (d, j) := found.getD (m * powerOfTen 17, k - 17)
  let digits := Nat.toDigits 10 d
  let trimmed := dropTrailing (· == '0') digits
  (trimmed, digits.length + j)

/-- An exponent with its sign and at least two digits. -/
private def exponentText (e : Int) : List Char :=
  let digits := Nat.toDigits 10 e.natAbs
  (if e < 0 then '-' else '+') :: (if digits.length < 2 then '0' :: digits else digits)

/-- Digits with the point at `k`, written positionally if `-4 < k ≤ 16`. -/
private def layOut (digits : List Char) (k : Int) : List Char :=
  if -4 < k && k ≤ 16 then
    if k ≤ 0 then '0' :: '.' :: (List.replicate (-k).toNat '0' ++ digits)
    else
      let n := k.toNat
      let whole := digits.take n ++ List.replicate (n - digits.length) '0'
      let part := digits.drop n
      whole ++ '.' :: (if part.isEmpty then ['0'] else part)
  else
    match digits with
    | [] => []
    | [d] => d :: 'e' :: exponentText (k - 1)
    | d :: more => d :: '.' :: (more ++ 'e' :: exponentText (k - 1))

def signText (negative : Bool) : List Char := if negative then ['-'] else []

/-- The text of a number. -/
def text : Double → String
  | infinite negative => if negative then "-inf" else "inf"
  | finite negative m q =>
    if m = 0 then String.ofList (signText negative ++ ['0', '.', '0'])
    else
      let (digits, k) := shortestDigits m q
      String.ofList (signText negative ++ layOut digits k)

/-- The hexadecimal text of a number: the leading bit, thirteen digits and a binary exponent. -/
def hexText : Double → String
  | infinite negative => if negative then "-inf" else "inf"
  | finite negative m q =>
    let tail (lead : Char) (e : Int) : List Char :=
      '0' :: 'x' :: lead :: '.' :: (hexPadded 13 (m % powerOfTwo 52) ++
        'p' :: (if e < 0 then '-' else '+') :: Nat.toDigits 10 e.natAbs)
    String.ofList (signText negative ++
      if m = 0 then ['0', 'x', '0', '.', '0', 'p', '+', '0']
      else if m < powerOfTwo 52 then tail '0' (q + 52)
      else tail '1' (q + 52))

/-- An exponent mark with its number; a text that starts with no exponent has exponent 0. -/
def takeExponent : List Char → Option (Int × List Char)
  | [] => some (0, [])
  | c :: rest =>
    if c == 'e' || c == 'E' then
      let (negative, body) := Integer.takeSign rest
      match Integer.takeDigits body with
      | ([], _) => none
      | (digits, after) =>
        let n := Integer.ofDigits digits
        some (if negative then -(n : Int) else n, after)
    else some (0, c :: rest)

/-- Read a whole text as a number. -/
def ofChars? (s : List Char) : Option Double :=
  let (negative, body) := Integer.takeSign (Integer.trimNumber s)
  let (whole, afterWhole) := Integer.takeDigits body
  let (part, afterPart) := match afterWhole with
    | '.' :: rest => Integer.takeDigits rest
    | _ => ([], afterWhole)
  if whole.isEmpty && part.isEmpty then none
  else
    match takeExponent afterPart with
    | some (e, []) => some (ofDecimal negative (Integer.ofDigits (whole ++ part)) (e - part.length))
    | _ => none

end TextTemplate.Double
