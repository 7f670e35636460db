import TextTemplate.Number.Integer

/-!
# Binary floating-point numbers

The finite and infinite double-precision numbers as exact values: a sign, a significand below 2⁵³ and a
binary exponent. Nothing here computes with rounded machine arithmetic: a number is read by rounding an
exact quotient to the nearest double, a tie going to the even significand, and written with the fewest
digits that read back.
-/

namespace TextTemplate

/-- An exact number `mantissa · 2^exponent`. -/
structure Dyadic where
  mantissa : Int
  exponent : Int

/-- Compare two exact numbers over the smaller of their exponents. -/
def Dyadic.order (a b : Dyadic) : Ordering :=
  let low := min a.exponent b.exponent
  compare (a.mantissa * powerOfTwo (a.exponent - low).toNat)
    (b.mantissa * powerOfTwo (b.exponent - low).toNat)

/-- A point of the number line, the two ends included. -/
inductive Magnitude where
  | exact (value : Dyadic)
  | infinite (negative : Bool)

namespace Magnitude

def ofInt (n : Int) : Magnitude := exact ⟨n, 0⟩

def order : Magnitude → Magnitude → Ordering
  | exact a, exact b => a.order b
  | exact _, infinite negative => if negative then .gt else .lt
  | infinite negative, exact _ => if negative then .lt else .gt
  | infinite a, infinite b => compare b.toNat a.toNat

end Magnitude

/-- A double-precision number other than the undefined one: `±significand · 2^exponent`, or an infinity. -/
inductive Double where
  | finite (negative : Bool) (significand : Nat) (exponent : Int)
  | infinite (negative : Bool)
  deriving DecidableEq, Repr

namespace Double

def leastExponent : Int := -1074

def zero (negative : Bool) : Double := finite negative 0 leastExponent

def isZero : Double → Bool
  | finite _ m _ => m == 0
  | infinite _ => false

/-- Divide, rounding to the nearest integer and a tie to the even one. -/
def roundDiv (num den : Nat) : Nat :=
  let low := num / den
  let rest := 2 * (num % den)
  if rest > den || (rest == den && low % 2 == 1) then low + 1 else low

/-- The double nearest to `±num / den`. -/
def ofRatio (negative : Bool) (num den : Nat) : Double :=
  if num = 0 then zero negative
  else
    let estimate : Int := (num.log2 : Int) - den.log2
    let reached :=
      if 0 ≤ estimate then num ≥ den * powerOfTwo estimate.toNat
      else num * powerOfTwo (-estimate).toNat ≥ den
    let magnitude := if reached then estimate else estimate - 1
    let exponent := max (magnitude - 52) leastExponent
    let significand :=
      if 0 ≤ exponent then roundDiv num (den * powerOfTwo exponent.toNat)
      else roundDiv (num * powerOfTwo (-exponent).toNat) den
    let (significand, exponent) :=
      if significand = powerOfTwo 53 then (powerOfTwo 52, exponent + 1) else (significand, exponent)
    if exponent > 971 then infinite negative else finite negative significand exponent

/-- The double nearest to `±digits · 10^scale`. Scales far outside the range are not multiplied out. -/
def ofDecimal (negative : Bool) (digits : Nat) (scale : Int) : Double :=
  if digits = 0 then zero negative
  else
    let places : Int := (digits.log2 : Int) / 4 + scale
    if places > 400 then infinite negative
    else if (digits.log2 : Int) / 3 + 1 + scale < -400 then zero negative
    else if 0 ≤ scale then ofRatio negative (digits * powerOfTen scale.toNat) 1
    else ofRatio negative digits (powerOfTen (-scale).toNat)

/-- The exact value of a number. -/
def magnitude : Double → Magnitude
  | finite negative m q => .exact ⟨if negative then -(m : Int) else m, q⟩
  | infinite negative => .infinite negative

/-- The whole part, rounding toward zero. Infinities have none. -/
def truncate? : Double → Option Int
  | finite negative m q =>
    let whole := if 0 ≤ q then m * powerOfTwo q.toNat else m / powerOfTwo (-q).toNat
    some (if negative then -(whole : Int) else whole)
  | infinite _ => none

def isWhole : Double → Bool
  | finite _ m q => 0 ≤ q || m % powerOfTwo (-q).toNat == 0
  | infinite _ => false

end Double

end TextTemplate
