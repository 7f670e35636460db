import TextTemplate.Text.CharClass

/-!
# Closed strings

A closed string starts with a single or double quote and runs to the next quote of the same kind. A
backslash takes the character after it along, so an escaped quote does not close the string; a backslash
before a line break, or at the end of the text, leaves the string unclosed.

The template, tag header, expression and condition readers all find strings with `closedString?`.
-/

namespace TextTemplate.Text

def isQuote (c : Char) : Bool := c == '"' || c == '\''

/-- The rest of a string up to and including its closing quote `q`, and the text after it. -/
def closing? (q : Char) : List Char → Option (List Char × List Char)
  | [] => none
  | '\\' :: [] => none
  | '\\' :: c :: rest =>
    if c == '\n' then none
    else (closing? q rest).map fun (inside, after) => ('\\' :: c :: inside, after)
  | c :: rest =>
    if c == q then some ([c], rest)
    else (closing? q rest).map fun (inside, after) => (c :: inside, after)

/-- The closed string at the start of a text, quotes included, and the text after it. -/
def closedString? : List Char → Option (List Char × List Char)
  | [] => none
  | q :: rest =>
    if isQuote q then (closing? q rest).map fun (inside, after) => (q :: inside, after) else none

/-- A string up to its closing quote is a part of the text, and nothing is lost. -/
theorem closing?_append {q : Char} {s inside after : List Char} (h : closing? q s = some (inside, after)) :
    s = inside ++ after ∧ inside ≠ [] := by
  fun_induction closing? q s generalizing inside after with
  | case1 | case2 | case3 => simp at h
  | case4 c rest _ ih =>
    simp only [Option.map_eq_some_iff, Prod.exists, Prod.mk.injEq] at h
    obtain ⟨a, b, hc, rfl, rfl⟩ := h
    simp [(ih hc).1]
  | case5 c rest =>
    obtain ⟨rfl, rfl⟩ : [c] = inside ∧ rest = after := by simpa using h
    simp
  | case6 c rest _ _ _ ih =>
    simp only [Option.map_eq_some_iff, Prod.exists, Prod.mk.injEq] at h
    obtain ⟨a, b, hc, rfl, rfl⟩ := h
    simp [(ih hc).1]

theorem closedString?_append {s string after : List Char} (h : closedString? s = some (string, after)) :
    s = string ++ after ∧ string ≠ [] := by
  cases s with
  | nil => simp [closedString?] at h
  | cons q rest =>
    simp only [closedString?] at h
    split at h
    · simp only [Option.map_eq_some_iff, Prod.exists, Prod.mk.injEq] at h
      obtain ⟨inside, b, hc, rfl, rfl⟩ := h
      simp [(closing?_append hc).1]
    · simp at h

theorem closedString?_length_lt {s string after : List Char} (h : closedString? s = some (string, after)) :
    after.length < s.length := by
  obtain ⟨rfl, hne⟩ := closedString?_append h
  simpa using List.length_pos_iff.mpr hne

end TextTemplate.Text
