import TextTemplate.Text.Blank

/-!
# Reading YAML scalars

Where a scalar ends and what its text is. Scalars may go on over several lines: one newline becomes a space, more
of them become one less, and the blanks around them are dropped. Line and paragraph separators end a line as well,
but stay in the text. All readers give the text of the scalar and the characters after it; the ones for quoted
scalars start after the opening quote and have no answer if the scalar is malformed.
-/

namespace TextTemplate.Yaml

/-- Whether a character ends a word: a blank, a newline, or the end of the text. -/
def isGap : Option Char → Bool
  | none => true
  | some c => c == ' ' || c == '\t' || c == '\n'

def isSpaceOrTab (c : Char) : Bool := c == ' ' || c == '\t'

/-- Whether a character ends a line. The line separator and the paragraph separator do, but they are no gap:
without a blank before it, such a character is part of a word. -/
def isBreak (c : Char) : Bool := c == '\n' || c == '\u2028' || c == '\u2029'

/-- The column after a character in some column. The mark of the byte order takes none. -/
def nextColumn (column : Nat) (c : Char) : Nat :=
  if isBreak c then 0 else if c == '\ufeff' then column else column + 1

/-- Whether a line starts with the mark of a document's start or end. -/
def startsWithMark (line : List Char) : Bool :=
  [['-', '-', '-'], ['.', '.', '.']].contains (line.take 3) && isGap (line.drop 3).head?

/-- The text that line breaks fold into. A first newline is a space if it is alone and is left out otherwise;
everything else stays. -/
def folded (first : Char) (more : List Char) : List Char :=
  if first != '\n' then first :: more else if more.isEmpty then [' '] else more

/-! ### Quoted scalars -/

/-- Skip the blanks at the start of a line, and further empty lines: how those end, and what follows. A line may
not start with a document mark. -/
def emptyLines (line : List Char) : Option (List Char × List Char) :=
  if startsWithMark line then none
  else
    match _h : line.dropWhile isSpaceOrTab with
    | [] => some ([], [])
    | c :: rest =>
      if isBreak c then (emptyLines rest).map fun (breaks, after) => (c :: breaks, after)
      else some ([], c :: rest)
termination_by line.length
decreasing_by
  have := Text.dropWhile_length_le isSpaceOrTab line
  rw [_h, List.length_cons] at this
  omega

private def hexDigit? (c : Char) : Option Nat :=
  if c.isDigit then some (c.toNat - 48)
  else if 'a' ≤ c && c ≤ 'f' then some (c.toNat - 87)
  else if 'A' ≤ c && c ≤ 'F' then some (c.toNat - 55)
  else none

/-- The character with the given hexadecimal code. -/
private def coded? (digits : List Char) : Option Char := do
  let n ← digits.foldlM (fun n c => (hexDigit? c).map (16 * n + ·)) 0
  if n < 0x110000 && !(0xD800 ≤ n && n < 0xE000) then some (Char.ofNat n) else none

/-- The character that an escape stands for, and the text after it. -/
def escape? : List Char → Option (Char × List Char)
  | [] => none
  | c :: rest =>
    let code (n : Nat) : Option (Char × List Char) :=
      if (rest.take n).length == n then (coded? (rest.take n)).map (·, rest.drop n) else none
    match c with
    | 'n' => some ('\n', rest)
    | 't' | '\t' => some ('\t', rest)
    | 'r' => some ('\r', rest)
    | '0' => some ('\x00', rest)
    | 'a' => some ('\x07', rest)
    | 'b' => some ('\x08', rest)
    | 'v' => some ('\x0b', rest)
    | 'f' => some ('\x0c', rest)
    | 'e' => some ('\x1b', rest)
    | 'N' => some ('\u0085', rest)
    | '_' => some ('\u00a0', rest)
    | 'L' => some ('\u2028', rest)
    | 'P' => some ('\u2029', rest)
    | 'x' => code 2
    | 'u' => code 4
    | 'U' => code 8
    | _ => if c == '"' || c == '\\' || c == '/' || c == ' ' then some (c, rest) else none

/-- Put characters before the text of a scalar. -/
private def after (before : List Char) (read : Option (List Char × List Char)) :
    Option (List Char × List Char) :=
  read.map fun (text, rest) => (before ++ text, rest)

/-- The rest of a quoted scalar. In double quotes a backslash escapes a character or a line break; in single ones
a quote is written twice. -/
def quoted (double : Bool) : (fuel : Nat) → List Char → Option (List Char × List Char)
  | 0, _ => none
  | _, [] => none
  | fuel + 1, c :: rest =>
    if isSpaceOrTab c || isBreak c then
      match (c :: rest).dropWhile isSpaceOrTab with
      | [] => none
      | d :: line =>
        if isBreak d then do
          let (more, next) ← emptyLines line
          after (folded d more) (quoted double fuel next)
        else after ((c :: rest).takeWhile isSpaceOrTab) (quoted double fuel (d :: line))
    else if double then
      if c == '"' then some ([], rest)
      else if c == '\\' then
        match rest with
        | [] => none
        | d :: line =>
          if isBreak d then do
            let (more, next) ← emptyLines line
            after more (quoted double fuel next)
          else do
            let (x, next) ← escape? (d :: line)
            after [x] (quoted double fuel next)
      else after [c] (quoted double fuel rest)
    else if c == '\'' then
      match rest with
      | '\'' :: next => after [c] (quoted double fuel next)
      | _ => some ([], rest)
    else after [c] (quoted double fuel rest)

/-! ### Plain scalars -/

def isFlowMark (c : Char) : Bool := c == ',' || c == '[' || c == ']' || c == '\x7b' || c == '\x7d'

/-- Whether a plain scalar can start with a character, given the one after it. -/
def startsPlain (inFlow : Bool) (c : Char) (next : Option Char) : Bool :=
  if c == '-' then !isGap next
  else if c == '?' then !inFlow && !isGap next
  else if c == ':' then !isGap next
  else !(isGap (some c) || isBreak c || isFlowMark c ||
    ['#', '&', '*', '!', '|', '>', '\'', '"', '%', '@', '\x60'].contains c)

/-- The part of a plain scalar without blanks at the start of a text. It ends before a key mark and, in a flow
collection, before one of its marks. -/
def plainWord (inFlow : Bool) : List Char → List Char
  | [] => []
  | c :: rest =>
    if isGap (some c) || (c == ':' && isGap rest.head?) || (inFlow && isFlowMark c) then []
    else c :: plainWord inFlow rest

/-- How further empty lines after a line break in a plain scalar end, the indentation of the line after them, and
what follows it. A line that starts with a document mark has none. -/
def plainBreaks (line : List Char) : List Char × Option Nat × List Char :=
  if startsWithMark line then ([], none, line)
  else
    let indent := (line.takeWhile (· == ' ')).length
    match _h : line.dropWhile (· == ' ') with
    | [] => ([], some indent, [])
    | c :: rest =>
      if isBreak c then
        let (breaks, indent, after) := plainBreaks rest
        (c :: breaks, indent, after)
      else ([], some indent, c :: rest)
termination_by line.length
decreasing_by
  have := Text.dropWhile_length_le (· == ' ') line
  rw [_h, List.length_cons] at this
  omega

/-- A plain scalar as it was read. -/
structure PlainText where
  text : List Char
  rest : List Char
  /-- Whether it was left at a line break. -/
  leftLine : Bool

/-- Read on in a plain scalar, from some column, after the blanks or line breaks that stand for `gap`. Outside flow
collections it goes on only from the column `indent` on. -/
def plain (inFlow : Bool) (indent : Nat) :
    (fuel : Nat) → (column : Nat) → (gap : List Char) → (newLine : Bool) → List Char → PlainText
  | 0, _, _, newLine, s => ⟨[], s, newLine⟩
  | fuel + 1, column, gap, newLine, s =>
    let word := plainWord inFlow s
    if word.isEmpty || s.head? == some '#' then ⟨[], s, newLine⟩
    else
      let afterWord := s.drop word.length
      let blanks := afterWord.takeWhile (· == ' ')
      let atColumn (column : Nat) (gap : List Char) (newLine : Bool) (next : List Char) : PlainText :=
        if !inFlow && column < indent then ⟨[], next, newLine⟩
        else plain inFlow indent fuel column gap newLine next
      let sameLine (next : List Char) : PlainText :=
        if blanks.isEmpty then ⟨[], next, false⟩
        else atColumn ((word ++ blanks).foldl nextColumn column) blanks false next
      let found : PlainText :=
        match afterWord.dropWhile (· == ' ') with
        | [] => sameLine []
        | c :: line =>
          if isBreak c then
            match plainBreaks line with
            | (_, none, next) => ⟨[], next, true⟩
            | (more, some column, next) => atColumn column (folded c more) true next
          else sameLine (c :: line)
      ⟨gap ++ word ++ found.text, found.rest, found.leftLine⟩

end TextTemplate.Yaml
