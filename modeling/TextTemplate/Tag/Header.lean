import TextTemplate.CompileError
import TextTemplate.Token.Bits

/-!
# Headers of the standard tags

The parts of tag headers that have a form of their own: the loop variables and sequence of `for`, the
assignments of `with`, and the symbols that `templatetag` can write.
-/

namespace TextTemplate.Header

open Text

/-- A loop header as it is written. -/
structure Loop where
  names : List String
  sequence : String
  reversed : Bool
  deriving DecidableEq, Repr

/-- A name that a loop can bind: an ASCII letter, then word characters. -/
def isLoopName : List Char → Bool
  | [] => false
  | c :: rest => c.isAlpha && rest.all isWord

/-- The names between the commas of a text. -/
def commaNames (s : String) : List String :=
  (splitAtChar ',' s.toList).map fun name => String.ofList (trimBy (· == ' ') name)

/-- Check the names of a loop from left to right. -/
def checkLoopNames : List String → Except HeaderFault Unit
  | [] => .ok ()
  | name :: rest =>
    if isLoopName name.toList then checkLoopNames rest else .error (.loopVariable name)

/-- The bits of a loop header, last bit first: the sequence, the word `in`, and the names before it. -/
def loopOfReversedBits (header : String) (isReversed : Bool) : List String → Except HeaderFault Loop
  | sequence :: "in" :: names => do
    let names := commaNames (" ".intercalate names.reverse)
    checkLoopNames names
    return ⟨names, sequence, isReversed⟩
  | _ => .error (.loopFormat header)

/-- Read the header of a `for` tag: `names in sequence`, or `names in sequence reversed`. -/
def loop (header : String) : Except HeaderFault Loop :=
  let bits := Bits.ofString header
  if bits.length < 3 then .error (.loopFormat header)
  else match bits.reverse with
    | "reversed" :: sequence :: "in" :: names =>
      if names.isEmpty then loopOfReversedBits header false bits.reverse
      else loopOfReversedBits header true (sequence :: "in" :: names)
    | reversedBits => loopOfReversedBits header false reversedBits

/-- An assignment `name=expression`, where the expression has no line break. -/
def assignment? (bit : List Char) : Option (String × String) :=
  let name := bit.takeWhile isWord
  match bit.dropWhile isWord with
  | '=' :: value =>
    if name.isEmpty || value.isEmpty || value.contains '\n' then none
    else some (String.ofList name, String.ofList value)
  | _ => none

/-- Read an assignment of a `with` tag. -/
def assignment (bit : String) : Except HeaderFault (String × String) :=
  match assignment? bit.toList with
  | some found => .ok found
  | none => .error (.badAssignment bit)

/-- The symbols that cannot be written as text, by the names under which they are asked for. -/
def symbols : List (String × String) := [
  ("openblock", "\x7b%"),
  ("closeblock", "%\x7d"),
  ("openvariable", "\x7b\x7b"),
  ("closevariable", "\x7d\x7d"),
  ("openbrace", "\x7b"),
  ("closebrace", "\x7d"),
  ("opencomment", "\x7b#"),
  ("closecomment", "#\x7d")]

/-- Read the header of a `templatetag` tag. -/
def symbol (header : String) : Except HeaderFault String :=
  match (words header.toList).map String.ofList with
  | [name] =>
    match symbols.lookup name with
    | some s => .ok s
    | none => .error (.unknownSymbol name (symbols.map (·.1)))
  | _ => .error .oneSymbolExpected

end TextTemplate.Header
