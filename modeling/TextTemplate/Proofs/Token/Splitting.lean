import TextTemplate.Proofs.Text.Strings

/-!
# How a header is split

The bits of a text and the blanks around them, and the way back from any bits that blanks keep apart. A bit may hold
blanks inside complete strings only. Two bits need not be kept apart by a blank: where a quote opens no complete
string, the bit in front of it can end there.
-/

namespace TextTemplate.Bits

open Text

/-- Bits as they are laid out in a text: some blanks, and then each bit with the blanks behind it. -/
structure Layout where
  lead : List Char
  pieces : List (List Char × List Char)

namespace Layout

def text (l : Layout) : List Char := l.lead ++ l.pieces.flatMap fun piece => piece.1 ++ piece.2

def bits (l : Layout) : List (List Char) := l.pieces.map (·.1)

/-- What stands around the bits and between them. -/
def gaps (l : Layout) : List (List Char) := l.lead :: l.pieces.map (·.2)

/-- Nothing but blanks stands around the bits and between them. -/
def Spaced (l : Layout) : Prop := ∀ gap ∈ l.gaps, ∀ c ∈ gap, isBlank c = true

/-- At least one blank stands between two bits. -/
def Apart (l : Layout) : Prop := ∀ piece ∈ l.pieces.dropLast, piece.2 ≠ []

instance (l : Layout) : Decidable l.Spaced :=
  decidable_of_iff (l.gaps.all fun gap => gap.all isBlank) (by simp only [Spaced, List.all_eq_true])

instance (l : Layout) : Decidable l.Apart := inferInstanceAs (Decidable (∀ piece ∈ l.pieces.dropLast, piece.2 ≠ []))

end Layout

variable {s : List Char}

/-! ## What a bit is -/

/-- Strings with plain runs behind them are taken as such. -/
theorem strings_madeOf (s : List Char) : MadeOf isPlain (strings s).1 := by
  fun_induction strings s with
  | case1 => exact .nil
  | case2 s string after h more rest heq ih =>
    rw [heq] at ih
    have hplain : MadeOf isPlain (after.takeWhile isPlain) := .of_forall fun c hc => List.mem_takeWhile_imp hc
    rw [List.append_assoc]
    exact .string (closedString?_eq_some_iff.mp h).1 (hplain.append ih)

/-- A bit is made of plain characters and complete strings, or it holds no blank at all. -/
theorem first_spec (s : List Char) : MadeOf isPlain (first s).1 ∨ ∀ c ∈ (first s).1, isBlank c = false := by
  rw [first]
  split_ifs
  · have hplain : MadeOf isPlain (s.takeWhile isPlain) := .of_forall fun c hc => List.mem_takeWhile_imp hc
    exact .inl (hplain.append (strings_madeOf _))
  · refine .inr fun c hc => ?_
    simpa using List.mem_takeWhile_imp hc

/-- What is made of plain characters and complete strings is solid. -/
theorem solid_of_madeOf (h : MadeOf isPlain s) : Solid s := by
  induction h with
  | nil => exact .nil
  | char inClass _ ih => exact .plain inClass ih
  | string complete _ ih => exact .string (closedString?_eq_some_iff.mpr ⟨complete, rfl⟩) ih

/-! ## Splitting and laying out -/

/-- A text is laid out as its bits. -/
theorem exists_layout (s : List Char) : ∃ l : Layout, l.Spaced ∧ l.text = s ∧ l.bits = split s ∧
    ∀ b ∈ l.bits, b ≠ [] ∧ (MadeOf isPlain b ∨ ∀ c ∈ b, isBlank c = false) := by
  fun_induction split s with
  | case1 s h =>
    have hall : ∀ c ∈ s, isBlank c = true := by
      simpa using List.dropWhile_eq_nil_iff.mp h
    exact ⟨⟨s, []⟩, by simpa [Layout.Spaced, Layout.gaps] using hall, by simp [Layout.text], rfl, nofun⟩
  | case2 s c rest h ih =>
    obtain ⟨l, hspaced, htext, hbits, hwhole⟩ := ih
    obtain ⟨hlead, hgaps⟩ := List.forall_mem_cons.mp hspaced
    have hs : s.takeWhile isBlank ++ (c :: rest) = s := by
      rw [← h]
      exact List.takeWhile_append_dropWhile
    have hne : (first (c :: rest)).1 ≠ [] := by
      have hblank : isBlank c = false := by
        have hhead := List.head?_dropWhile_not isBlank s
        rw [show s.dropWhile isBlank = c :: rest from h] at hhead
        simpa using hhead
      have hshorter := first_length_lt rest hblank
      have happend := congrArg List.length (first_append (c :: rest))
      rw [List.length_append] at happend
      exact List.length_pos_iff.mp (by omega)
    refine ⟨⟨s.takeWhile isBlank, ((first (c :: rest)).1, l.lead) :: l.pieces⟩, ?_, ?_, ?_, ?_⟩
    · exact List.forall_mem_cons.mpr ⟨fun d hd => List.mem_takeWhile_imp hd, List.forall_mem_cons.mpr ⟨hlead, hgaps⟩⟩
    · calc
        s.takeWhile isBlank ++ ((first (c :: rest)).1 ++ l.lead ++ l.pieces.flatMap fun piece => piece.1 ++ piece.2) =
            s.takeWhile isBlank ++ ((first (c :: rest)).1 ++ l.text) := by rw [Layout.text, List.append_assoc]
        _ = s := by rw [htext, first_append, hs]
    · exact congrArg _ hbits
    · exact List.forall_mem_cons.mpr ⟨⟨hne, first_spec _⟩, hwhole⟩

/-- Blanks at the start are no part of a bit. -/
theorem split_blanks {gap : List Char} (hgap : ∀ c ∈ gap, isBlank c = true) (rest : List Char) :
    split (gap ++ rest) = split rest := by
  induction gap with
  | nil => rfl
  | cons c gap ih =>
    obtain ⟨hc, hlater⟩ := List.forall_mem_cons.mp hgap
    rw [List.cons_append, split_blank hc, ih hlater]

/-- Bits that are kept apart are split off one by one. -/
theorem split_solid {pieces : List (List Char × List Char)}
    (hgaps : ∀ piece ∈ pieces, ∀ c ∈ piece.2, isBlank c = true) (hapart : ∀ piece ∈ pieces.dropLast, piece.2 ≠ [])
    (hbits : ∀ piece ∈ pieces, piece.1 ≠ [] ∧ Solid piece.1) :
    split (pieces.flatMap fun piece => piece.1 ++ piece.2) = pieces.map (·.1) := by
  induction pieces with
  | nil =>
    rw [List.flatMap_nil, split.eq_def]
    rfl
  | cons piece pieces ih =>
    obtain ⟨hgap, hgaps'⟩ := List.forall_mem_cons.mp hgaps
    obtain ⟨⟨hne, hsolid⟩, hbits'⟩ := List.forall_mem_cons.mp hbits
    have hlater := ih hgaps' (fun piece' h => hapart piece' ?_) hbits'
    · have hstops : Stops (piece.2 ++ pieces.flatMap fun piece => piece.1 ++ piece.2) := by
        cases hgap' : piece.2 with
        | nil =>
          cases pieces with
          | nil => exact stops_nil
          | cons next more => exact absurd hgap' (hapart piece (by simp))
        | cons c more => exact stops_cons (hgap c (by simp [hgap'])) _
      rw [List.flatMap_cons, List.append_assoc, hsolid.split_append hne hstops, split_blanks hgap,
        hlater]
      rfl
    · cases pieces with
      | nil => cases h
      | cons next more =>
        rw [List.dropLast_cons_of_ne_nil (List.cons_ne_nil next more)]
        exact List.mem_cons_of_mem _ h

theorem split_pieces {pieces : List (List Char × List Char)}
    (hgaps : ∀ piece ∈ pieces, ∀ c ∈ piece.2, isBlank c = true) (hapart : ∀ piece ∈ pieces.dropLast, piece.2 ≠ [])
    (hbits : ∀ piece ∈ pieces, piece.1 ≠ [] ∧ MadeOf isPlain piece.1) :
    split (pieces.flatMap fun piece => piece.1 ++ piece.2) = pieces.map (·.1) :=
  split_solid hgaps hapart fun piece h => ⟨(hbits piece h).1, solid_of_madeOf (hbits piece h).2⟩

/-- Splitting is exact. Every text is its bits, in order, with nothing but blanks around and between them; no bit is
empty, and a bit that holds a blank is made of plain characters and complete strings, so the blank stands in a string.
And bits that are made of plain characters and complete strings are split again into the same bits, whatever blanks
stand between them and around them. -/
theorem ofString_layout :
    (∀ s : String, ∃ l : Layout, l.Spaced ∧ String.ofList l.text = s ∧ l.bits.map String.ofList = ofString s ∧
      ∀ b ∈ l.bits, b ≠ [] ∧ (MadeOf isPlain b ∨ ∀ c ∈ b, isBlank c = false)) ∧
    ∀ l : Layout, l.Spaced → l.Apart → (∀ b ∈ l.bits, b ≠ [] ∧ MadeOf isPlain b) →
      ofString (String.ofList l.text) = l.bits.map String.ofList := by
  refine ⟨fun s => ?_, fun l hspaced hapart hbits => ?_⟩
  · obtain ⟨l, hspaced, htext, hbits, hwhole⟩ := exists_layout s.toList
    exact ⟨l, hspaced, by rw [htext, String.ofList_toList], by rw [hbits, ofString], hwhole⟩
  · obtain ⟨hlead, hgaps⟩ := List.forall_mem_cons.mp hspaced
    have hsplit : split l.text = l.bits := by
      rw [Layout.text, split_blanks hlead]
      exact split_pieces (List.forall_mem_map.mp hgaps) hapart (List.forall_mem_map.mp hbits)
    rw [ofString, String.toList_ofList, hsplit]

/-- Blanks in strings, an escaped quote and strings side by side do not mislead it. -/
theorem ofString_layout_tangled :
    ofString "\n x=\"a b\"\t\t'c\\' d'\"e\"f  g " = ["x=\"a b\"", "'c\\' d'\"e\"f", "g"] := by
  have hdouble : IsString ['"', 'a', ' ', 'b', '"'] :=
    ⟨'"', ['a', ' ', 'b'], rfl, .plain (by decide) (by decide) (.plain (by decide) (by decide)
      (.plain (by decide) (by decide) .nil)), rfl⟩
  have hsingle : IsString ['\'', 'c', '\\', '\'', ' ', 'd', '\''] :=
    ⟨'\'', ['c', '\\', '\'', ' ', 'd'], rfl, .plain (by decide) (by decide) (.escaped (by decide)
      (.plain (by decide) (by decide) (.plain (by decide) (by decide) .nil))), rfl⟩
  have hshort : IsString ['"', 'e', '"'] := ⟨'"', ['e'], rfl, .plain (by decide) (by decide) .nil, rfl⟩
  have hfirst : MadeOf isPlain ['x', '=', '"', 'a', ' ', 'b', '"'] := .char rfl (.char rfl (.string hdouble .nil))
  have hsecond : MadeOf isPlain ['\'', 'c', '\\', '\'', ' ', 'd', '\'', '"', 'e', '"', 'f'] :=
    .string hsingle (.string hshort (.char rfl .nil))
  have hthird : MadeOf isPlain ['g'] := .char rfl .nil
  exact ofString_layout.2
    ⟨['\n', ' '], [(['x', '=', '"', 'a', ' ', 'b', '"'], ['\t', '\t']),
      (['\'', 'c', '\\', '\'', ' ', 'd', '\'', '"', 'e', '"', 'f'], [' ', ' ']), (['g'], [' '])]⟩
    (by decide) (by decide) (by simp [Layout.bits, hfirst, hsecond, hthird])

end TextTemplate.Bits
