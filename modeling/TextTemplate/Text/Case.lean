import TextTemplate.Text.CaseTable
import TextTemplate.Text.CharClass

/-!
# Letter case

Upper, lower and title case of texts by the full Unicode mappings, with the one mapping that depends on
its neighbours: a capital sigma at the end of a word becomes a final sigma.
-/

namespace TextTemplate.Text

/-- Whether a code point is in one of the progressions `(first, last, step)`. -/
private def onProgression (table : List (Nat × Nat × Nat)) (n : Nat) : Bool :=
  table.any fun (first, last, step) => first ≤ n && n ≤ last && (n - first) % step == 0

private def shifted (table : List (Nat × Nat × Nat × Nat)) (c : Char) : Char :=
  match table.find? fun (first, last, step, _) =>
      first ≤ c.toNat && c.toNat ≤ last && (c.toNat - first) % step == 0 with
  | some (first, _, _, image) => Char.ofNat (image + (c.toNat - first))
  | none => c

private def spelledOut (table : List (Nat × List Nat)) (c : Char) : Option (List Char) :=
  (table.lookup c.toNat).map (·.map Char.ofNat)

def isUpper (c : Char) : Bool :=
  if isAscii c then c.isUpper else onProgression CaseTable.upperLetters c.toNat

def isLower (c : Char) : Bool :=
  if isAscii c then c.isLower else onProgression CaseTable.lowerLetters c.toNat

def isTitle (c : Char) : Bool := !isAscii c && covers CaseTable.titleLetters c.toNat

def isCased (c : Char) : Bool := isUpper c || isLower c || isTitle c

private def isCaseIgnorable (c : Char) : Bool := covers CaseTable.caseIgnorable c.toNat

def upperChar (c : Char) : List Char :=
  if isAscii c then [c.toUpper] else (spelledOut CaseTable.longUpper c).getD [shifted CaseTable.toUpper c]

/-- The lower-case form of a character on its own. -/
def lowerChar (c : Char) : List Char :=
  if isAscii c then [c.toLower] else (spelledOut CaseTable.longLower c).getD [shifted CaseTable.toLower c]

def titleChar (c : Char) : List Char :=
  if isAscii c then [c.toUpper]
  else match spelledOut CaseTable.longTitle c with
    | some cs => cs
    | none => match CaseTable.toTitle.lookup c.toNat with
      | some n => [Char.ofNat n]
      | none => upperChar c

/-- Whether the first character that does not get stepped over is cased. -/
private def casedAhead (s : List Char) : Bool :=
  match s.dropWhile isCaseIgnorable with
  | c :: _ => isCased c
  | [] => false

/-- The lower-case form of `c` between the characters `before` (nearest first) and `after`. -/
def lowerBetween (before : List Char) (c : Char) (after : List Char) : List Char :=
  if c == 'Σ' then
    if casedAhead before && !casedAhead after then ['ς'] else ['σ']
  else lowerChar c

/-- Map every character with its neighbours in view; `before` holds the characters passed, nearest first. -/
private def mapWithNeighbours (f : List Char → Char → List Char → List Char) :
    List Char → List Char → List Char
  | _, [] => []
  | before, c :: after => f before c after ++ mapWithNeighbours f (c :: before) after

def upper (s : List Char) : List Char := s.flatMap upperChar

def lower (s : List Char) : List Char := mapWithNeighbours lowerBetween [] s

/-- Title case: a cased character takes its title form unless another cased character precedes it. -/
def title (s : List Char) : List Char :=
  mapWithNeighbours (fun before c after =>
    match before with
    | p :: _ => if isCased p then lowerBetween before c after else titleChar c
    | [] => titleChar c) [] s

/-- The first character in title form and the rest in lower case. -/
def capitalize (s : List Char) : List Char :=
  mapWithNeighbours (fun before c after =>
    if before.isEmpty then titleChar c else lowerBetween before c after) [] s

def swapCase (s : List Char) : List Char :=
  mapWithNeighbours (fun before c after =>
    if isUpper c then lowerBetween before c after
    else if isLower c then upperChar c
    else [c]) [] s

/-- The first character in upper case, the rest as it is. -/
def upperFirst : List Char → List Char
  | [] => []
  | c :: rest => upperChar c ++ rest

/-- Some character is upper case, and none is lower or title case. -/
def isUpperText (s : List Char) : Bool := s.any isUpper && !s.any fun c => isLower c || isTitle c

/-- Some character is lower case, and none is upper or title case. -/
def isLowerText (s : List Char) : Bool := s.any isLower && !s.any fun c => isUpper c || isTitle c

end TextTemplate.Text
