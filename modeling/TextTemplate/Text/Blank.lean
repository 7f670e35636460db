import TextTemplate.Text.CharClass

/-!
# Blanks between words

Trimming, splitting at blanks, and the small searches that the readers share. Every function works on the
characters of a text and returns parts of it in order.
-/

namespace TextTemplate.Text

def dropBlanks (s : List Char) : List Char := s.dropWhile isBlank

/-- The text without the characters of a class at its end. -/
def dropTrailing (p : Char → Bool) : List Char → List Char
  | [] => []
  | c :: rest =>
    match dropTrailing p rest with
    | [] => if p c then [] else [c]
    | kept => c :: kept

/-- The text without the characters of a class at either end. -/
def trimBy (p : Char → Bool) (s : List Char) : List Char := dropTrailing p (s.dropWhile p)

/-- The text without the blanks at either end. -/
def trim (s : List Char) : List Char := trimBy isBlank s

/-- Split off the first word: the leading run of other characters, after any blanks. -/
def firstWord (s : List Char) : List Char × List Char :=
  ((dropBlanks s).takeWhile (!isBlank ·), (dropBlanks s).dropWhile (!isBlank ·))

theorem dropWhile_length_le {α : Type _} (p : α → Bool) (s : List α) :
    (s.dropWhile p).length ≤ s.length := (List.dropWhile_sublist p).length_le

/-- The words of a text: its maximal runs of characters that are not blank. -/
def words (s : List Char) : List (List Char) :=
  match _h : dropBlanks s with
  | [] => []
  | c :: rest => (c :: rest.takeWhile (!isBlank ·)) :: words (rest.dropWhile (!isBlank ·))
termination_by s.length
decreasing_by
  have h₁ := dropWhile_length_le (!isBlank ·) rest
  have h₂ := dropWhile_length_le isBlank s
  rw [show s.dropWhile isBlank = c :: rest from _h, List.length_cons] at h₂
  omega

/-- Split at every occurrence of one character; the parts may be empty. -/
def splitAtChar (sep : Char) : List Char → List (List Char)
  | [] => [[]]
  | c :: rest =>
    if c == sep then [] :: splitAtChar sep rest
    else match splitAtChar sep rest with
      | part :: parts => (c :: part) :: parts
      | [] => [[c]]

/-- The lines of a text without their ends; a carriage return and the newline after it end one line. -/
def lines : List Char → List (List Char)
  | [] => []
  | '\r' :: '\n' :: rest => [] :: lines rest
  | c :: rest =>
    if isLineEnd c then [] :: lines rest
    else match lines rest with
      | line :: more => (c :: line) :: more
      | [] => [[c]]

/-- The text before the first occurrence of `mark`, and the text after it. -/
def breakAt (mark : List Char) : List Char → Option (List Char × List Char)
  | [] => if mark.isEmpty then some ([], []) else none
  | c :: rest =>
    if mark.isPrefixOf (c :: rest) then some ([], (c :: rest).drop mark.length)
    else (breakAt mark rest).map fun (before, after) => (c :: before, after)

/-- Replace the occurrences of a non-empty `old`, from left to right and without overlap. -/
def replaceAll (old new : List Char) : List Char → List Char
  | [] => []
  | c :: rest =>
    if _h : old ≠ [] ∧ old.isPrefixOf (c :: rest) then
      new ++ replaceAll old new ((c :: rest).drop old.length)
    else c :: replaceAll old new rest
termination_by s => s.length
decreasing_by
  · have := List.length_pos_iff.mpr _h.1
    simp only [List.length_drop, List.length_cons]; omega
  · simp

/-- Whether `part` occurs somewhere in the text. -/
def occursIn (part s : List Char) : Bool := (breakAt part s).isSome

end TextTemplate.Text
