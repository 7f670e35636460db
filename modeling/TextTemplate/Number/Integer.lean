import TextTemplate.Text.Blank

/-!
# Decimal integers

Reading integers the way numbers are written in templates: an optional sign and decimal digits of any
script, where single underscores may separate digits. Texts of more than `maxDigits` digits are refused,
and an integer of more digits has no text.
-/

namespace TextTemplate

/-- `2 ^ n`. -/
def powerOfTwo (n : Nat) : Nat := Nat.pow 2 n

/-- `10 ^ n`. -/
def powerOfTen (n : Nat) : Nat := Nat.pow 10 n

namespace Integer

open Text

/-- The most digits an integer may have when it is read or written. -/
def maxDigits : Nat := 4300

/-- Drop an underscore that stands before a digit. -/
def dropSeparator : List Char → List Char
  | '_' :: c :: rest => if isDecimal c then c :: rest else '_' :: c :: rest
  | s => s

theorem dropSeparator_length_le (s : List Char) : (dropSeparator s).length ≤ s.length := by
  unfold dropSeparator
  split
  · split <;> simp
  · exact Nat.le_refl _

/-- The leading digits of a text, where one underscore may stand between two digits. -/
def takeDigits : List Char → List Nat × List Char
  | [] => ([], [])
  | c :: rest =>
    match digit? c with
    | none => ([], c :: rest)
    | some d =>
      let (digits, after) := takeDigits (dropSeparator rest)
      (d :: digits, after)
termination_by s => s.length
decreasing_by
  have := dropSeparator_length_le rest
  simp only [List.length_cons]; omega

/-- The number that a row of decimal digits stands for. -/
def ofDigits (digits : List Nat) : Nat := digits.foldl (fun n d => 10 * n + d) 0

/-- The blanks that may stand around a number; the four ASCII separators are not among them. -/
def isNumberBlank (c : Char) : Bool := isBlank c && !(28 ≤ c.toNat && c.toNat < 32)

/-- A number without the blanks around it. -/
def trimNumber (s : List Char) : List Char := trimBy isNumberBlank s

/-- Split off a sign; true means minus. -/
def takeSign : List Char → Bool × List Char
  | '-' :: rest => (true, rest)
  | '+' :: rest => (false, rest)
  | s => (false, s)

/-- Read a whole text as an integer. -/
def ofChars? (s : List Char) : Option Int :=
  let (negative, body) := takeSign (trimNumber s)
  match takeDigits body with
  | (d :: digits, []) =>
    if digits.length < maxDigits then
      let n := ofDigits (d :: digits)
      some (if negative then -(n : Int) else n)
    else none
  | _ => none

def ofString? (s : String) : Option Int := ofChars? s.toList

/-- Whether an integer is short enough to be written. -/
def isWritable (n : Int) : Bool := n.natAbs < powerOfTen maxDigits

/-- How many binary digits the absolute value has. -/
def bitLength (n : Int) : Nat := if n = 0 then 0 else n.natAbs.log2 + 1

end Integer

end TextTemplate
