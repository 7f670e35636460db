import TextTemplate.Config.Yaml.Scalar

/-!
# YAML lexemes

The words of a document: scalars, marks, and the starts and ends of block collections, which are told from the
indentation. Outside flow collections a deeper item or key starts a collection, and a line that is indented
less ends those that started deeper.

Whether something is a key is known only when the key mark after it is met. Until then it is kept in mind as a
candidate, one for each level of brackets; it must be on the same line as its mark. A candidate that stands
where only a key can stand, in the column of a mapping, must become one.
-/

namespace TextTemplate.Yaml

inductive Lexeme where
  /-- The start of a sequence whose items have dashes. -/
  | items
  /-- The start of a mapping that is told from its indentation. -/
  | entries
  /-- The end of such a sequence or mapping. -/
  | dedent
  | openBracket
  | closeBracket
  | openBrace
  | closeBrace
  | comma
  | dash
  /-- A key follows. -/
  | key
  /-- The value of a key follows. -/
  | value
  | scalar (isPlain : Bool) (text : List Char)
  | documentStart
  | documentEnd
  deriving DecidableEq, Repr

/-- What may turn out to be a key. -/
structure Candidate where
  /-- How many lexemes come before it. -/
  place : Nat
  offset : Nat
  line : Nat
  column : Nat
  required : Bool

/-- A document while it is read. -/
structure Scan where
  rest : List Char
  offset : Nat
  line : Nat
  column : Nat
  found : List Lexeme
  /-- The columns of the open block collections, the innermost first. -/
  indents : List Nat
  /-- The open brackets and braces, the innermost first, each with the candidate outside it. -/
  brackets : List (Char × Option Candidate)
  candidate : Option Candidate
  /-- Whether a key can start here. -/
  keyAllowed : Bool

namespace Scan

def start (text : List Char) : Scan := ⟨text, 0, 0, 0, [], [], [], none, true⟩

def inFlow (s : Scan) : Bool := !s.brackets.isEmpty

/-- Whether a column is deeper than the innermost block collection. -/
def isDeeper (s : Scan) (column : Nat) : Bool := s.indents.all (· < column)

/-- The least column in which a scalar of the innermost block collection goes on. -/
def continuation (s : Scan) : Nat :=
  match s.indents with
  | [] => 0
  | column :: _ => column + 1

/-! ### Moving on -/

def advance : (n : Nat) → Scan → Scan
  | 0, s => s
  | n + 1, s =>
    match s.rest with
    | [] => s
    | c :: rest => advance n { s with
        rest := rest
        offset := s.offset + 1
        line := if isBreak c then s.line + 1 else s.line
        column := nextColumn s.column c }

/-- Move on to where the given characters are left. -/
def advanceTo (rest : List Char) (s : Scan) : Scan := s.advance (s.rest.length - rest.length)

/-- Skip blanks, comments and line ends. Tabs are blanks in flow collections only. After a line end a key can
start. -/
def skip : (fuel : Nat) → Scan → Scan
  | 0, s => s
  | fuel + 1, s =>
    let s := s.advanceTo (s.rest.dropWhile fun c => c == ' ' || (c == '\t' && s.inFlow))
    let s := if s.rest.head? == some '#' then s.advanceTo (s.rest.dropWhile (· != '\n')) else s
    if s.rest.head?.any isBreak then
      let s := s.advance 1
      skip fuel (if s.inFlow then s else { s with keyAllowed := true })
    else s

/-- Add a lexeme of `n` characters. -/
def emit (lexeme : Lexeme) (n : Nat) (s : Scan) : Scan := { s.advance n with found := s.found ++ [lexeme] }

/-! ### Candidates -/

/-- The longest distance from a key to its mark. -/
def maxKeyDistance : Nat := 1024

/-- A candidate as it is seen further on: it is given up on another line or too far away. -/
def reviewed (s : Scan) : Option Candidate → Option (Option Candidate)
  | none => some none
  | some k =>
    if k.line == s.line && s.offset ≤ k.offset + maxKeyDistance then some (some k)
    else if k.required then none else some none

/-- Give up the candidates that have no key mark in time. -/
def review (s : Scan) : Option Scan := do
  let candidate ← s.reviewed s.candidate
  let brackets ← s.brackets.mapM fun (c, k) => do return (c, ← s.reviewed k)
  return { s with candidate := candidate, brackets := brackets }

/-- Give up the candidate of this level. -/
def forget (s : Scan) : Option Scan :=
  match s.candidate with
  | some k => if k.required then none else some { s with candidate := none }
  | none => some s

/-- Keep in mind that a key may start here. -/
def remember (s : Scan) : Option Scan := do
  if s.keyAllowed then
    let s ← s.forget
    let required := !s.inFlow && s.indents.head? == some s.column
    return { s with candidate := some ⟨s.found.length, s.offset, s.line, s.column, required⟩ }
  else return s

/-! ### Block collections -/

/-- End the block collections that started deeper than a column. -/
def dedent (column : Nat) (s : Scan) : Scan :=
  if s.inFlow then s
  else
    { s with
      found := s.found ++ (s.indents.takeWhile (column < ·)).map fun _ => .dedent
      indents := s.indents.dropWhile (column < ·) }

/-- Start a block collection at a column if that is deeper, with a lexeme at the given place. -/
def indent (lexeme : Lexeme) (column place : Nat) (s : Scan) : Scan :=
  if !s.inFlow && s.isDeeper column then
    { s with
      found := s.found.take place ++ lexeme :: s.found.drop place
      indents := column :: s.indents }
  else s

/-- A mark of a block collection, which can stand only where a key can. -/
def blockMark (collection mark : Lexeme) (s : Scan) : Option Scan := do
  if !s.inFlow && !s.keyAllowed then none
  else
    let s := s.indent collection s.column s.found.length
    let s ← Scan.forget { s with keyAllowed := mark == .dash || !s.inFlow }
    return s.emit mark 1

/-- The mark after a key: it turns the candidate into a key, or else stands for itself. -/
def valueMark (s : Scan) : Option Scan :=
  match s.candidate with
  | some k =>
    let found := s.found.take k.place ++ .key :: s.found.drop k.place
    let s := { s with found := found, candidate := none, keyAllowed := false }
    some ((s.indent .entries k.column k.place).emit .value 1)
  | none => s.blockMark .entries .value

/-! ### Lexemes -/

def opened (mark : Char) (lexeme : Lexeme) (s : Scan) : Option Scan := do
  let s ← s.remember
  return { s with
    brackets := (mark, s.candidate) :: s.brackets, candidate := none, keyAllowed := true }.emit lexeme 1

def closed (lexeme : Lexeme) (s : Scan) : Option Scan := do
  let s ← s.forget
  match s.brackets with
  | [] => none
  | (_, outer) :: brackets =>
    return { s with brackets := brackets, candidate := outer, keyAllowed := false }.emit lexeme 1

def comma (s : Scan) : Option Scan := do
  let s ← { s with keyAllowed := true }.forget
  return s.emit .comma 1

def documentMark (lexeme : Lexeme) (s : Scan) : Option Scan := do
  let found := s.found ++ s.indents.map fun _ => .dedent
  let s ← { s with found := found, indents := [], keyAllowed := false }.forget
  return s.emit lexeme 3

def quotedScalar (quote : Char) (s : Scan) : Option Scan := do
  let s ← s.remember
  let (text, rest) ← quoted (quote == '"') s.rest.length s.rest.tail
  return { (s.advanceTo rest) with found := s.found ++ [.scalar false text], keyAllowed := false }

def plainScalar (s : Scan) : Option Scan := do
  let s ← s.remember
  let read := plain s.inFlow s.continuation s.rest.length s.column [] false s.rest
  return { (s.advanceTo read.rest) with
    found := s.found ++ [.scalar true read.text], keyAllowed := read.leftLine }

/-- Whether a colon is a value mark: before a blank, and anywhere inside braces. -/
def isValueMark (s : Scan) : Bool :=
  isGap s.rest[1]? || (s.brackets.head?.map (·.1)) == some '\x7b'

/-- Read the lexeme that starts here. -/
def lexeme (s : Scan) : Option Scan :=
  let next := s.rest[1]?
  if s.column == 0 && startsWithMark s.rest then
    s.documentMark (if s.rest.head? == some '-' then .documentStart else .documentEnd)
  else match s.rest.head? with
    | none => none
    | some '[' => s.opened '[' .openBracket
    | some '\x7b' => s.opened '\x7b' .openBrace
    | some ']' => s.closed .closeBracket
    | some '\x7d' => s.closed .closeBrace
    | some ',' => s.comma
    | some c =>
      if c == '-' && isGap next then s.blockMark .items .dash
      else if c == '?' && (s.inFlow || isGap next) then s.blockMark .entries .key
      else if c == ':' && s.isValueMark then s.valueMark
      else if c == '"' || c == '\'' then s.quotedScalar c
      else if startsPlain s.inFlow c next then s.plainScalar
      else none

/-- End the document: all block collections end. -/
def finish (s : Scan) : Option (List Lexeme) := do
  let s ← s.forget
  return s.found ++ s.indents.map fun _ => .dedent

/-- Read the remaining lexemes, at most `fuel` of them. -/
def lexemes : (fuel : Nat) → Scan → Option (List Lexeme)
  | 0, _ => none
  | fuel + 1, s => do
    let s ← (s.skip (s.rest.length + 1)).review
    let s := s.dedent s.column
    if s.rest.isEmpty then s.finish else lexemes fuel (← s.lexeme)

end Scan

/-- The lexemes of a document. -/
def lexemes (text : List Char) : Option (List Lexeme) := (Scan.start text).lexemes (text.length + 1)

end TextTemplate.Yaml
