import TextTemplate.CompileError
import TextTemplate.Number.Decimal
import TextTemplate.Text.ClosedString
import TextTemplate.Value.Basic

/-!
# Operands

An operand is a literal (a number, a quoted text, `True`, `False` or `None`) or a lookup path: names and
positions separated by dots. No segment of a path is empty or starts with an underscore.
-/

namespace TextTemplate

/-- What an operand stands for. -/
inductive OperandMeaning where
  | literal (value : Value)
  /-- A lookup path, its first segment apart. -/
  | path (first : String) (rest : List String)

structure Operand where
  source : String
  meaning : OperandMeaning

namespace Operand

/-- Whether a text is written like a number with a point or an exponent. -/
def looksFractional (s : List Char) : Bool := s.any fun c => c == '.' || c == 'e' || c == 'E'

/-- Read a number literal; `none` if the text is no number. A number may not end in a point. -/
def number? (s : List Char) : Except ExpressionFault (Option Value) :=
  if looksFractional s then
    match Double.ofChars? s with
    | none => .ok none
    | some x => if s.getLast? == some '.' then .error (.badNumber (String.ofList s)) else .ok (some (.float x))
  else .ok ((Integer.ofChars? s).map .int)

/-- The text between two equal quotes, if a text starts and ends with them. -/
def quotedBody? : List Char → Option (Char × List Char)
  | [] => none
  | q :: rest =>
    if Text.isQuote q && rest.getLast? == some q then some (q, rest.dropLast) else none

/-- Undo the escapes of a quoted text: first those of its quote `q`, then those of the backslash. -/
def unescape (q : Char) (body : List Char) : List Char :=
  Text.replaceAll ['\\', '\\'] ['\\'] (Text.replaceAll ['\\', q] [q] body)

/-- The literals written as words. -/
def keyword? (s : List Char) : Option Value :=
  if s == ['T', 'r', 'u', 'e'] then some (.bool true)
  else if s == ['F', 'a', 'l', 's', 'e'] then some (.bool false)
  else if s == ['N', 'o', 'n', 'e'] then some .none
  else none

/-- Check the segments of a path one by one. -/
def checkSegments (source : String) : List (List Char) → Except ExpressionFault Unit
  | [] => .ok ()
  | [] :: _ => .error (.badPath source)
  | (c :: _) :: rest => if c == '_' then .error (.privateName source) else checkSegments source rest

/-- Read the segments of a path. -/
def path (s : List Char) : Except ExpressionFault OperandMeaning :=
  let segments := Text.splitAtChar '.' s
  match checkSegments (String.ofList s) segments with
  | .error e => .error e
  | .ok () =>
    match segments.map String.ofList with
    | [] => .error (.badPath (String.ofList s))
    | first :: rest => .ok (.path first rest)

/-- Read what a text stands for as an operand. -/
def meaningOf (s : List Char) : Except ExpressionFault OperandMeaning :=
  match number? s with
  | .error e => .error e
  | .ok (some v) => .ok (.literal v)
  | .ok none =>
    match quotedBody? s with
    | some (q, body) => .ok (.literal (.text (String.ofList (unescape q body))))
    | none =>
      match keyword? s with
      | some v => .ok (.literal v)
      | none => path s

/-- Read a text as an operand. -/
def ofChars (s : List Char) : Except CompileError Operand :=
  match meaningOf s with
  | .ok meaning => .ok ⟨String.ofList s, meaning⟩
  | .error fault => .error (.ofCause (.expression fault))

def ofString (s : String) : Except CompileError Operand := ofChars s.toList

end Operand

end TextTemplate
