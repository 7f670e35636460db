import TextTemplate.Text.Blank
import TextTemplate.Text.ClosedString

/-!
# Bits of a tag header

A tag header is split at blanks, except inside closed strings. A bit is a run of characters and closed
strings up to the next blank; if its first quote opens no closed string, the bit runs to the next blank
whatever quotes it holds, and if a later quote opens none, the bit ends before that quote.
-/

namespace TextTemplate.Bits

open Text

/-- Characters that stand for themselves in a bit: neither blank nor quote. -/
def isPlain (c : Char) : Bool := !isBlank c && !isQuote c

/-- As many closed strings, each with the plain run after it, as the text starts with. -/
def strings (s : List Char) : List Char × List Char :=
  match _h : closedString? s with
  | none => ([], s)
  | some (string, after) =>
    let (more, rest) := strings (after.dropWhile isPlain)
    (string ++ after.takeWhile isPlain ++ more, rest)
termination_by s.length
decreasing_by
  have := closedString?_length_lt _h
  have := dropWhile_length_le isPlain after
  omega

/-- The bit at the start of a text that starts with no blank, and the rest. -/
def first (s : List Char) : List Char × List Char :=
  if (closedString? (s.dropWhile isPlain)).isSome then
    (s.takeWhile isPlain ++ (strings (s.dropWhile isPlain)).1, (strings (s.dropWhile isPlain)).2)
  else (s.takeWhile (!isBlank ·), s.dropWhile (!isBlank ·))

theorem strings_append (s : List Char) : (strings s).1 ++ (strings s).2 = s := by
  fun_induction strings s with
  | case1 => rfl
  | case2 s string after h more rest heq ih =>
    simp only [heq] at ih
    rw [(closedString?_append h).1, List.append_assoc, List.append_assoc, ih,
      List.takeWhile_append_dropWhile]

/-- Splitting off the first bit loses nothing. -/
theorem first_append (s : List Char) : (first s).1 ++ (first s).2 = s := by
  unfold first
  split
  · simp only [List.append_assoc, strings_append, List.takeWhile_append_dropWhile]
  · exact List.takeWhile_append_dropWhile

theorem strings_length_lt {s : List Char} (h : (closedString? s).isSome) :
    (strings s).2.length < s.length := by
  rw [strings.eq_def]
  split
  · simp_all
  · rename_i string after hs
    have h₁ := closedString?_length_lt hs
    have h₂ := dropWhile_length_le isPlain after
    have h₃ := congrArg List.length (strings_append (after.dropWhile isPlain))
    simp only [List.length_append] at h₃
    simp only
    omega

/-- A text that starts with no blank starts with a bit that is not empty. -/
theorem first_length_lt {c : Char} (rest : List Char) (h : isBlank c = false) :
    (first (c :: rest)).2.length < (c :: rest).length := by
  unfold first
  split
  · rename_i hs
    have h₁ := strings_length_lt hs
    have h₂ := dropWhile_length_le isPlain (c :: rest)
    simp only
    omega
  · simp only [List.dropWhile_cons, h, Bool.not_false, ↓reduceIte,
      List.length_cons]
    have := dropWhile_length_le (!isBlank ·) rest
    omega

/-- The bits of a text. -/
def split (s : List Char) : List (List Char) :=
  match _h : dropBlanks s with
  | [] => []
  | c :: rest => (first (c :: rest)).1 :: split (first (c :: rest)).2
termination_by s.length
decreasing_by
  have h₁ : isBlank c = false := by
    have := List.head?_dropWhile_not isBlank s
    rw [show s.dropWhile isBlank = c :: rest from _h] at this
    simpa using this
  have h₂ := first_length_lt rest h₁
  have h₃ := dropWhile_length_le isBlank s
  rw [show s.dropWhile isBlank = c :: rest from _h] at h₃
  omega

/-- The bits of a tag header. -/
def ofString (s : String) : List String := (split s.toList).map String.ofList

end TextTemplate.Bits
