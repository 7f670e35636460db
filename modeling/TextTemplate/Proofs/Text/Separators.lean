import Mathlib.Tactic.Common
import TextTemplate.Text.Blank

/-!
# Texts split at a character

Splitting a text at a character gives the parts between its occurrences. No part holds the character, and with the
character between them the parts make up the text again.
-/

namespace TextTemplate.Text

variable {sep : Char} {s part : List Char}

/-- A part that holds no separator is not split. -/
theorem splitAtChar_eq_singleton (h : ∀ c ∈ part, c ≠ sep) : splitAtChar sep part = [part] := by
  induction part with
  | nil => rfl
  | cons c part ih =>
    obtain ⟨hc, hpart⟩ := List.forall_mem_cons.mp h
    rw [splitAtChar, if_neg (by simpa using hc), ih hpart]

/-- A part is split off at the first separator. -/
theorem splitAtChar_append (h : ∀ c ∈ part, c ≠ sep) (rest : List Char) :
    splitAtChar sep (part ++ sep :: rest) = part :: splitAtChar sep rest := by
  induction part with
  | nil => simp [splitAtChar]
  | cons c part ih =>
    obtain ⟨hc, hpart⟩ := List.forall_mem_cons.mp h
    rw [List.cons_append, splitAtChar, if_neg (by simpa using hc), ih hpart]

theorem splitAtChar_ne_nil (sep : Char) (s : List Char) : splitAtChar sep s ≠ [] := by
  cases s with
  | nil => simp [splitAtChar]
  | cons c rest =>
    rw [splitAtChar]
    split
    · simp
    · split <;> simp

/-- No part holds the separator. -/
theorem not_mem_of_mem_splitAtChar (h : part ∈ splitAtChar sep s) : sep ∉ part := by
  induction s generalizing part with
  | nil =>
    rw [List.mem_singleton.mp h]
    exact List.not_mem_nil
  | cons c rest ih =>
    obtain ⟨first, parts, hparts⟩ := List.exists_cons_of_ne_nil (splitAtChar_ne_nil sep rest)
    rw [hparts] at ih
    rw [splitAtChar, hparts] at h
    split at h
    · obtain rfl | h := List.mem_cons.mp h
      · exact List.not_mem_nil
      · exact ih h
    · rename_i hc
      obtain rfl | h := List.mem_cons.mp h
      · rw [List.mem_cons, not_or]
        exact ⟨fun hsep => hc (by simp [hsep]), ih List.mem_cons_self⟩
      · exact ih (List.mem_cons_of_mem _ h)

/-- Splitting gives the parts between the separators. -/
theorem splitAtChar_eq_splitOn (sep : Char) (s : List Char) : splitAtChar sep s = s.splitOn sep := by
  induction s with
  | nil => simp [splitAtChar]
  | cons c rest ih =>
    obtain ⟨first, parts, hparts⟩ := List.exists_cons_of_ne_nil (List.splitOnP_ne_nil (· == sep) rest)
    rw [splitAtChar, ih, List.splitOn, List.splitOn, List.splitOnP_cons_eq_if_modifyHead, hparts]
    rfl

end TextTemplate.Text
