import Mathlib.Data.List.Basic
import Mathlib.Data.List.TakeWhile
import Mathlib.Tactic.Common
import TextTemplate.Text.Blank
import TextTemplate.Token.Bits

/-!
# Texts with no blanks around them

The blanks are finitely many, and none of them is a word character, a digit or a quote. A text that neither
starts nor ends with a blank is what trimming leaves of it; blanks put around it are taken off again, and a
word in front of it is split off without touching it.
-/

namespace TextTemplate.Text

/-- The code points of the blanks. -/
def blankPoints : List Nat :=
  [9, 10, 11, 12, 13, 28, 29, 30, 31, 32, 0x85, 0xA0, 0x1680, 0x2000, 0x2001, 0x2002, 0x2003, 0x2004, 0x2005,
    0x2006, 0x2007, 0x2008, 0x2009, 0x200A, 0x2028, 0x2029, 0x202F, 0x205F, 0x3000]

theorem exists_point_of_isBlank {c : Char} (h : isBlank c = true) : ∃ n ∈ blankPoints, c = Char.ofNat n := by
  refine ⟨c.toNat, ?_, (Char.ofNat_toNat c).symm⟩
  simp only [isBlank, Bool.or_eq_true, Bool.and_eq_true, decide_eq_true_eq, beq_iff_eq] at h
  simp only [blankPoints, List.mem_cons, List.not_mem_nil, or_false]
  omega

/-- What holds of no blank point holds of no blank. -/
theorem isBlank_eq_false_of {p : Char → Bool} (hp : ∀ n ∈ blankPoints, p (Char.ofNat n) = false) {c : Char}
    (h : p c = true) : isBlank c = false := by
  cases hb : isBlank c with
  | false => rfl
  | true =>
    obtain ⟨n, hn, rfl⟩ := exists_point_of_isBlank hb
    rw [hp n hn] at h
    cases h

theorem isBlank_eq_false_of_isWord {c : Char} (h : isWord c = true) : isBlank c = false :=
  isBlank_eq_false_of (by decide +kernel) h

theorem isBlank_eq_false_of_isDecimal {c : Char} (h : isDecimal c = true) : isBlank c = false :=
  isBlank_eq_false_of (by decide +kernel) h

theorem isBlank_eq_false_of_isQuote {c : Char} (h : isQuote c = true) : isBlank c = false :=
  isBlank_eq_false_of (by decide +kernel) h

/-- A quote is neither a word character nor a digit. -/
theorem isQuote_iff {c : Char} : isQuote c = true ↔ c = '"' ∨ c = '\'' := by simp [isQuote]

theorem isQuote_eq_false_of_isBlank {c : Char} (h : isBlank c = true) : isQuote c = false := by
  cases hq : isQuote c with
  | false => rfl
  | true =>
    rw [isBlank_eq_false_of_isQuote hq] at h
    cases h

theorem isQuote_eq_false_of {p : Char → Bool} (h₁ : p '"' = false) (h₂ : p '\'' = false) {c : Char}
    (h : p c = true) : isQuote c = false := by
  cases hq : isQuote c with
  | false => rfl
  | true => rcases isQuote_iff.mp hq with rfl | rfl <;> simp_all

/-- Word characters stand for themselves in a bit. -/
theorem isPlain_of_isWord {c : Char} (h : isWord c = true) : Bits.isPlain c = true := by
  simp [Bits.isPlain, isBlank_eq_false_of_isWord h,
    isQuote_eq_false_of (p := isWord) (by decide) (by decide) h]

theorem isPlain_of_isDecimal {c : Char} (h : isDecimal c = true) : Bits.isPlain c = true := by
  simp [Bits.isPlain, isBlank_eq_false_of_isDecimal h,
    isQuote_eq_false_of (p := isDecimal) (by decide) (by decide) h]

/-! ## Trimming -/

/-- A text with no blank at either end. -/
structure Trimmed (s : List Char) : Prop where
  head : ∀ c ∈ s.head?, isBlank c = false
  last : ∀ c ∈ s.getLast?, isBlank c = false

instance : DecidablePred Trimmed := fun s =>
  decidable_of_iff (s.head?.all (!isBlank ·) = true ∧ s.getLast?.all (!isBlank ·) = true)
    ⟨fun ⟨hhead, hlast⟩ => ⟨by simpa [Option.all_eq_true] using hhead, by simpa [Option.all_eq_true] using hlast⟩,
      fun ⟨hhead, hlast⟩ => ⟨by simpa [Option.all_eq_true] using hhead, by simpa [Option.all_eq_true] using hlast⟩⟩

theorem trimmed_nil : Trimmed [] := ⟨by simp, by simp⟩

theorem trimmed_empty : Trimmed "".toList := trimmed_nil

/-- Two texts without blanks at their ends can be put together, whatever is between them. -/
theorem Trimmed.append {s t : List Char} (hs : Trimmed s) (ht : Trimmed t) (hs' : s ≠ []) (ht' : t ≠ [])
    (between : List Char) : Trimmed (s ++ between ++ t) where
  head c hc := by
    rw [List.append_assoc, List.head?_append_of_ne_nil _ hs'] at hc
    exact hs.head c hc
  last c hc := by
    rw [List.getLast?_append_of_ne_nil _ ht'] at hc
    exact ht.last c hc

theorem dropTrailing_eq_self {p : Char → Bool} {s : List Char} (h : ∀ c ∈ s.getLast?, p c = false) :
    dropTrailing p s = s := by
  induction s with
  | nil => rfl
  | cons c rest ih =>
    cases rest with
    | nil => simp [dropTrailing, h c (by simp)]
    | cons d rest =>
      rw [dropTrailing, ih (by simpa using h)]

theorem dropTrailing_cons {p : Char → Bool} {c : Char} (h : p c = false) (s : List Char) :
    dropTrailing p (c :: s) = c :: dropTrailing p s := by
  rw [dropTrailing]
  split
  · rename_i hrest
    rw [hrest, h]
    rfl
  · rfl

/-- Trimming takes nothing from a text that has no character of the class. -/
theorem trimBy_eq_self {p : Char → Bool} {s : List Char} (h : ∀ c ∈ s, p c = false) : trimBy p s = s := by
  have hdrop : s.dropWhile p = s := by
    cases s with
    | nil => rfl
    | cons c rest => simp [h c (by simp)]
  rw [trimBy, hdrop, dropTrailing_eq_self fun c hc => h c (List.mem_of_mem_getLast? hc)]

theorem dropTrailing_append_blank {p : Char → Bool} {b : Char} (hb : p b = true) (s : List Char) :
    dropTrailing p (s ++ [b]) = dropTrailing p s := by
  induction s with
  | nil => simp [dropTrailing, hb]
  | cons c rest ih => rw [List.cons_append, dropTrailing, dropTrailing, ih]

theorem trimBy_append_blank {p : Char → Bool} {b : Char} (hb : p b = true) (s : List Char) :
    trimBy p (s ++ [b]) = trimBy p s := by
  rw [trimBy, trimBy, List.dropWhile_append]
  split_ifs with hall
  · rw [List.isEmpty_iff.mp hall, List.dropWhile_cons_of_pos hb]
    rfl
  · exact dropTrailing_append_blank hb _

theorem dropBlanks_eq_self {s : List Char} (h : ∀ c ∈ s.head?, isBlank c = false) : dropBlanks s = s := by
  cases s with
  | nil => rfl
  | cons c rest => simp [dropBlanks, h c (by simp)]

/-- There is nothing to trim. -/
theorem Trimmed.trim_eq {s : List Char} (h : Trimmed s) : trim s = s := by
  rw [trim, trimBy, show s.dropWhile isBlank = s from dropBlanks_eq_self h.head, dropTrailing_eq_self h.last]

/-- A blank in front is taken off. -/
theorem trim_blank (s : List Char) : trim (' ' :: s) = trim s := by
  have hblank : isBlank ' ' = true := by decide
  rw [trim, trim, trimBy, trimBy, List.dropWhile_cons, if_pos hblank]

/-- Blanks around a text are taken off. -/
theorem Trimmed.trim_padded {s : List Char} (h : Trimmed s) : trim (' ' :: s ++ [' ']) = s := by
  rw [trim, trimBy_append_blank (by decide), ← trim, trim_blank, h.trim_eq]

/-- A word is split off from what comes after a blank. -/
theorem firstWord_word {word : List Char} (hword : ∀ c ∈ word, isBlank c = false) (hne : word ≠ [])
    (rest : List Char) : firstWord (word ++ ' ' :: rest) = (word, ' ' :: rest) := by
  have hblank : isBlank ' ' = true := by decide
  have hdrop : dropBlanks (word ++ ' ' :: rest) = word ++ ' ' :: rest := by
    apply dropBlanks_eq_self
    intro c hc
    rw [List.head?_append_of_ne_nil _ hne] at hc
    exact hword c (List.mem_of_mem_head? hc)
  have hall : ∀ c ∈ word, (!isBlank c) = true := fun c hc => by simp [hword c hc]
  rw [firstWord, hdrop, List.takeWhile_append_of_pos hall, List.dropWhile_append_of_pos hall]
  simp [hblank]

/-- A word on its own is all there is. -/
theorem firstWord_self {word : List Char} (hword : ∀ c ∈ word, isBlank c = false) :
    firstWord word = (word, []) := by
  have hdrop : dropBlanks word = word :=
    dropBlanks_eq_self fun c hc => hword c (List.mem_of_mem_head? hc)
  have hall : ∀ c ∈ word, (!isBlank c) = true := fun c hc => by simp [hword c hc]
  rw [firstWord, hdrop, List.takeWhile_eq_self_iff.mpr hall, List.dropWhile_eq_nil_iff.mpr hall]

theorem dropTrailing_isPrefix (p : Char → Bool) (s : List Char) : dropTrailing p s <+: s := by
  induction s with
  | nil => exact List.prefix_rfl
  | cons c rest ih =>
    rw [dropTrailing]
    split
    · split_ifs
      · exact List.nil_prefix
      · exact List.prefix_append [c] rest
    · exact (List.prefix_cons_inj c).mpr ih

theorem getLast?_dropTrailing {p : Char → Bool} {s : List Char} {c : Char} (h : c ∈ (dropTrailing p s).getLast?) :
    p c = false := by
  induction s with
  | nil => simp [dropTrailing] at h
  | cons d rest ih =>
    rw [dropTrailing] at h
    split at h
    · split_ifs at h with hd
      · simp at h
      · obtain rfl : d = c := by simpa using h
        simpa using hd
    · cases hkept : dropTrailing p rest with
      | nil => simp_all
      | cons e kept =>
        rw [hkept, List.getLast?_cons_cons] at h
        exact ih (hkept ▸ h)

/-- What is left after trimming is a part of the text. -/
theorem trim_isInfix (s : List Char) : trim s <:+: s :=
  (dropTrailing_isPrefix _ _).isInfix.trans (List.dropWhile_suffix _).isInfix

/-- There is no blank at either end of it. -/
theorem trimmed_trim (s : List Char) : Trimmed (trim s) where
  head c hc := by
    obtain ⟨dropped, hdropped⟩ := dropTrailing_isPrefix isBlank (s.dropWhile isBlank)
    have hkept : (dropTrailing isBlank (s.dropWhile isBlank)).head? = some c := hc
    have hfirst : (s.dropWhile isBlank).head? = some c := by
      rw [← hdropped, List.head?_append, hkept, Option.some_or]
    have hblank := List.head?_dropWhile_not isBlank s
    rwa [hfirst] at hblank
  last c hc := getLast?_dropTrailing hc

/-- Trimming makes no text longer. -/
theorem trim_length_le (s : List Char) : (trim s).length ≤ s.length := (trim_isInfix s).length_le

/-- What comes after the first word ends the text. -/
theorem firstWord_isSuffix (s : List Char) : (firstWord s).2 <:+ s :=
  (List.dropWhile_suffix _).trans (List.dropWhile_suffix _)

/-- The first word and what comes after it are parts of the text. -/
theorem firstWord_length_le (s : List Char) : (firstWord s).1.length + (firstWord s).2.length ≤ s.length := by
  rw [firstWord, ← List.length_append, List.takeWhile_append_dropWhile]
  exact dropWhile_length_le _ _

end TextTemplate.Text
