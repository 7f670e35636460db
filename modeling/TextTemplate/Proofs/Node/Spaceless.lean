import TextTemplate.Node.Render
import TextTemplate.Proofs.Text.Trim
import TextTemplate.Proofs.Token.Reading

/-!
# Blanks between tags

A gap is one or more blanks between a closing and an opening angle bracket. A `spaceless` block trims the text of its
body and closes the gaps in it. All other characters stay, in order, and so does every run of blanks that is neither
at an end nor in a gap. No gap is left or made, so closing gaps again changes nothing, and `spaceless` blocks inside
each other render as one.
-/

namespace TextTemplate

namespace Text

variable {s t run : List Char} {b c : Char}

/-- The characters of a text that are not blank. -/
def inked (s : List Char) : List Char := s.filter (!isBlank ·)

/-- There is a gap in the text: blanks, at least one, between a closing and an opening angle bracket. -/
def HasGap (s : List Char) : Prop := ∃ run, run ≠ [] ∧ (∀ c ∈ run, isBlank c = true) ∧ '>' :: run ++ ['<'] <:+: s

@[simp] theorem inked_append (s t : List Char) : inked (s ++ t) = inked s ++ inked t := List.filter_append s t

theorem inked_cons (c : Char) (s : List Char) : inked (c :: s) = inked [c] ++ inked s := inked_append [c] s

theorem inked_of_isBlank (h : ∀ c ∈ s, isBlank c = true) : inked s = [] :=
  List.filter_eq_nil_iff.mpr fun c hc => by simp [h c hc]

@[simp] theorem inked_dropBlanks (s : List Char) : inked (dropBlanks s) = inked s := by
  have hrun : inked (s.takeWhile isBlank) = [] := inked_of_isBlank fun _ hc => List.mem_takeWhile_imp hc
  have happend := inked_append (s.takeWhile isBlank) (s.dropWhile isBlank)
  rw [List.takeWhile_append_dropWhile, hrun] at happend
  exact happend.symm

theorem inked_dropTrailing (s : List Char) : inked (dropTrailing isBlank s) = inked s := by
  induction s with
  | nil => rfl
  | cons c rest ih =>
    rw [inked_cons c rest, ← ih, dropTrailing]
    split
    · rename_i hrest
      split_ifs with hc
      · rw [hrest, inked_of_isBlank (s := [c]) (by simpa using hc)]
        rfl
      · rw [hrest]
        exact (List.append_nil _).symm
    · rw [inked_cons]

/-- Trimming takes blanks only. -/
@[simp] theorem inked_trim (s : List Char) : inked (trim s) = inked s := by
  rw [trim, trimBy, inked_dropTrailing]
  exact inked_dropBlanks s

theorem dropBlanks_append (h : ∀ c ∈ run, isBlank c = true) (s : List Char) :
    dropBlanks (run ++ s) = dropBlanks s := by
  rw [dropBlanks, dropBlanks, List.dropWhile_append_of_pos h]

theorem dropBlanks_cons (h : isBlank c = true) (s : List Char) : dropBlanks (c :: s) = dropBlanks s := by
  rw [dropBlanks, dropBlanks, List.dropWhile_cons, if_pos h]

/-- What is in front of the first character that is not blank is all that is taken. -/
theorem dropBlanks_append_of_last (hs : s ≠ []) (hlast : ∀ c ∈ s.getLast?, isBlank c = false) (t : List Char) :
    dropBlanks (s ++ t) = dropBlanks s ++ t := by
  rw [dropBlanks, dropBlanks, List.dropWhile_append]
  split_ifs with hall
  · have hblank := List.dropWhile_eq_nil_iff.mp (List.isEmpty_iff.mp hall)
    have hne := hlast (s.getLast hs) (List.getLast?_eq_getLast_of_ne_nil hs)
    rw [hblank _ (List.getLast_mem hs)] at hne
    cases hne
  · rfl

/-- The last character stays. -/
theorem getLast?_dropBlanks (h : dropBlanks s ≠ []) : (dropBlanks s).getLast? = s.getLast? := by
  conv => rhs; rw [← List.takeWhile_append_dropWhile (p := isBlank) (l := s)]
  exact (List.getLast?_append_of_ne_nil _ h).symm

/-- What stands behind the last character that is not blank is all that is taken at the end. -/
theorem dropTrailing_append (hb : isBlank b = false) (s t : List Char) :
    dropTrailing isBlank (s ++ b :: t) = s ++ b :: dropTrailing isBlank t := by
  induction s with
  | nil => exact dropTrailing_cons hb t
  | cons c rest ih =>
    rw [List.cons_append, dropTrailing, ih]
    cases rest <;> rfl

/-- Trimming a text does nothing between characters that are not blank. -/
theorem trim_append (hs : s ≠ []) (hlast : ∀ c ∈ s.getLast?, isBlank c = false) (hb : isBlank b = false)
    (run t : List Char) :
    trim (s ++ run ++ b :: t) = dropBlanks s ++ run ++ b :: dropTrailing isBlank t := by
  have hdrop : (s ++ run ++ b :: t).dropWhile isBlank = dropBlanks s ++ run ++ b :: t := by
    rw [List.append_assoc, List.append_assoc]
    exact dropBlanks_append_of_last hs hlast _
  rw [trim, trimBy, hdrop, dropTrailing_append hb]

end Text

namespace Node

open Text

variable {s t run : List Char} {b c : Char}

theorem closeGaps_gap (h : (dropBlanks s).head? = some '<') :
    closeGaps ('>' :: s) = '>' :: closeGaps (dropBlanks s) := by
  rw [closeGaps, if_pos (by simp [h])]

theorem closeGaps_cons (h : ¬ (c = '>' ∧ (dropBlanks s).head? = some '<')) : closeGaps (c :: s) = c :: closeGaps s := by
  rw [closeGaps, if_neg (by simpa using h)]

theorem closeGaps_blank (h : isBlank c = true) (s : List Char) : closeGaps (c :: s) = c :: closeGaps s := by
  refine closeGaps_cons fun hgap => ?_
  obtain ⟨rfl, -⟩ := hgap
  cases h

/-- Blanks in front of a text are in no gap. -/
theorem closeGaps_append_of_isBlank (h : ∀ c ∈ run, isBlank c = true) (s : List Char) :
    closeGaps (run ++ s) = run ++ closeGaps s := by
  induction run with
  | nil => rfl
  | cons c rest ih =>
    obtain ⟨hc, hrest⟩ := List.forall_mem_cons.mp h
    rw [List.cons_append, closeGaps_blank hc, ih hrest, List.cons_append]

@[simp] theorem head?_closeGaps (s : List Char) : (closeGaps s).head? = s.head? := by
  cases s with
  | nil => rw [closeGaps]
  | cons c rest =>
    rw [closeGaps]
    split_ifs <;> rfl

theorem getLast?_closeGaps (s : List Char) : (closeGaps s).getLast? = s.getLast? := by
  have hcons (c : Char) {s t : List Char} (h : s.getLast? = t.getLast?) : (c :: s).getLast? = (c :: t).getLast? := by
    rw [List.getLast?_cons, List.getLast?_cons, h]
  fun_induction closeGaps s with
  | case1 => rfl
  | case2 c rest hgap ih =>
    have hne : dropBlanks rest ≠ [] := fun hnil => by simp [hnil] at hgap
    exact hcons c (ih.trans (getLast?_dropBlanks hne))
  | case3 c rest hgap ih => exact hcons c ih

/-- Closing gaps takes blanks only. -/
@[simp] theorem inked_closeGaps (s : List Char) : inked (closeGaps s) = inked s := by
  fun_induction closeGaps s with
  | case1 => rfl
  | case2 c rest hgap ih => rw [inked_cons, ih, inked_dropBlanks, ← inked_cons]
  | case3 c rest hgap ih => rw [inked_cons, ih, ← inked_cons]

/-- The first character that is not blank stays the first one. -/
theorem head?_dropBlanks_closeGaps (s : List Char) :
    (dropBlanks (closeGaps s)).head? = (dropBlanks s).head? := by
  induction s with
  | nil => rw [closeGaps]
  | cons c rest ih =>
    by_cases hc : isBlank c = true
    · rw [closeGaps_blank hc, dropBlanks_cons hc, dropBlanks_cons hc, ih]
    · have hink : isBlank c = false := by simpa using hc
      rw [dropBlanks_eq_self (s := closeGaps (c :: rest)) (by simpa using hink), head?_closeGaps,
        dropBlanks_eq_self (by simpa using hink)]

/-- There is no gap in a text with its gaps closed. The character after a bracket could only become the start of a
gap if the text behind it had become one that starts with blanks and an opening bracket; but it was one before. -/
theorem not_hasGap_closeGaps (s : List Char) : ¬ HasGap (closeGaps s) := by
  rintro ⟨run, hne, hblank, hwithin⟩
  fun_induction closeGaps s with
  | case1 => simp at hwithin
  | case2 c rest hgap ih =>
    rcases List.infix_cons_iff.mp hwithin with hprefix | hlater
    · obtain ⟨-, htail⟩ := List.cons_prefix_cons.mp hprefix
      obtain ⟨d, run, rfl⟩ := List.exists_cons_of_ne_nil hne
      obtain ⟨u, hu⟩ := htail
      have hhead : (dropBlanks rest).head? = some '<' := by simp_all
      have hd : (closeGaps (dropBlanks rest)).head? = some d := by rw [← hu]; rfl
      rw [head?_closeGaps, hhead] at hd
      obtain rfl : '<' = d := Option.some.inj hd
      exact absurd (hblank '<' List.mem_cons_self) (by decide)
    · exact ih hlater
  | case3 c rest hgap ih =>
    rcases List.infix_cons_iff.mp hwithin with hprefix | hlater
    · obtain ⟨rfl, u, hu⟩ := List.cons_prefix_cons.mp hprefix
      have hhead : (dropBlanks (closeGaps rest)).head? = some '<' := by
        rw [← hu, List.append_eq, List.append_assoc, dropBlanks_append hblank]
        rfl
      rw [head?_dropBlanks_closeGaps] at hhead
      simp [hhead] at hgap
    · exact ih hlater

/-- A text without gaps stays as it is. -/
theorem closeGaps_eq_self (h : ¬ HasGap s) : closeGaps s = s := by
  induction s with
  | nil => rw [closeGaps]
  | cons c rest ih =>
    have hrest : ¬ HasGap rest := by
      rintro ⟨run, hne, hblank, hwithin⟩
      exact h ⟨run, hne, hblank, hwithin.trans (List.suffix_cons c rest).isInfix⟩
    by_cases hgap : c = '>' ∧ (dropBlanks rest).head? = some '<'
    · obtain ⟨rfl, hhead⟩ := hgap
      have hsplit : rest.takeWhile isBlank ++ dropBlanks rest = rest := List.takeWhile_append_dropWhile
      obtain ⟨later, hlater⟩ : ∃ later, dropBlanks rest = '<' :: later := by
        simpa [List.head?_eq_some_iff] using hhead
      have hrun : rest.takeWhile isBlank = [] := by
        by_contra hne
        refine h ⟨rest.takeWhile isBlank, hne, fun _ hc => List.mem_takeWhile_imp hc, [], later, ?_⟩
        rw [hlater] at hsplit
        simpa using hsplit
      rw [hrun, List.nil_append] at hsplit
      rw [closeGaps_gap hhead, hsplit, ih hrest]
    · rw [closeGaps_cons hgap, ih hrest]

/-- Behind a single character, a run of blanks is dropped if it is a gap, and stays as it is otherwise. -/
theorem closeGaps_cons_append (hrun : ∀ c ∈ run, isBlank c = true) (hb : isBlank b = false) (c : Char)
    (t : List Char) : closeGaps (c :: (run ++ b :: t)) =
      c :: ((if c = '>' ∧ b = '<' then [] else run) ++ closeGaps (b :: t)) := by
  have hdrop : dropBlanks (run ++ b :: t) = b :: t := by
    rw [dropBlanks_append hrun, dropBlanks_eq_self (by simpa using hb)]
  by_cases hclose : c = '>' ∧ b = '<'
  · obtain ⟨rfl, rfl⟩ := hclose
    rw [closeGaps_gap (by rw [hdrop]; rfl), hdrop, if_pos ⟨rfl, rfl⟩, List.nil_append]
  · rw [closeGaps_cons (by simpa [hdrop] using hclose), closeGaps_append_of_isBlank hrun, if_neg hclose]

/-- A run of blanks between two characters is dropped if it is a gap, and stays as it is otherwise; what is in front of
it and what is behind it does not matter. -/
theorem closeGaps_append (hs : s ≠ []) (hlast : ∀ c ∈ s.getLast?, isBlank c = false)
    (hrun : ∀ c ∈ run, isBlank c = true) (hb : isBlank b = false) (t : List Char) : closeGaps (s ++ run ++ b :: t) =
      closeGaps s ++ (if s.getLast? = some '>' ∧ b = '<' then [] else run) ++ closeGaps (b :: t) := by
  fun_induction closeGaps s with
  | case1 => exact absurd rfl hs
  | case2 c rest hgap ih =>
    obtain ⟨rfl, hhead⟩ : c = '>' ∧ (dropBlanks rest).head? = some '<' := by simpa using hgap
    have hne : dropBlanks rest ≠ [] := fun hnil => by simp [hnil] at hhead
    have hrest : rest ≠ [] := fun hnil => hne (by rw [hnil]; rfl)
    have hkept : ('>' :: rest).getLast? = (dropBlanks rest).getLast? := by
      rw [getLast?_dropBlanks hne, List.getLast?_cons, List.getLast?_eq_getLast_of_ne_nil hrest]
      rfl
    rw [hkept] at hlast ⊢
    have hdrop : dropBlanks (rest ++ run ++ b :: t) = dropBlanks rest ++ run ++ b :: t := by
      rw [getLast?_dropBlanks hne] at hlast
      rw [List.append_assoc, dropBlanks_append_of_last hrest hlast, List.append_assoc]
    have hhead' : (dropBlanks (rest ++ run ++ b :: t)).head? = some '<' := by
      rw [hdrop, List.append_assoc, List.head?_append_of_ne_nil _ hne, hhead]
    rw [List.cons_append, List.cons_append, closeGaps_gap hhead', hdrop, ih hne hlast]
    rfl
  | case3 c rest hgap ih =>
    have hopen : ¬ (c = '>' ∧ (dropBlanks rest).head? = some '<') := by simpa using hgap
    cases rest with
    | nil => simpa [closeGaps] using closeGaps_cons_append hrun hb c t
    | cons d rest =>
      have hlater : ∀ c ∈ (d :: rest).getLast?, isBlank c = false := by simpa using hlast
      have hopen' : ¬ (c = '>' ∧ (dropBlanks (d :: rest ++ run ++ b :: t)).head? = some '<') := by
        have hkept : dropBlanks (d :: rest) ≠ [] := by
          intro hnil
          have hblank := List.dropWhile_eq_nil_iff.mp hnil
          have hink := hlater _ (List.getLast?_eq_getLast_of_ne_nil (List.cons_ne_nil d rest))
          rw [hblank _ (List.getLast_mem _)] at hink
          cases hink
        rwa [List.append_assoc, dropBlanks_append_of_last (List.cons_ne_nil d rest) hlater,
          List.head?_append_of_ne_nil _ hkept]
      rw [List.cons_append, List.cons_append, closeGaps_cons hopen', ih (List.cons_ne_nil d rest) hlater,
        List.getLast?_cons_cons]
      rfl

/-! ## The text of a `spaceless` block -/

/-- The text that a `spaceless` block makes of the text of its body. -/
def withoutGaps (text : String) : String := String.ofList (closeGaps (trim text.toList))

/-- What is left of a text without the blanks at its ends and in its gaps. -/
structure Despaced (text out : List Char) : Prop where
  /-- All characters that are not blank are there, in order. -/
  inked_eq : inked out = inked text
  trimmed : Trimmed out
  noGap : ¬ HasGap out
  /-- A run of blanks between two characters that are not blank stands between the same two characters, unless it is
  in a gap: then nothing stands between them. -/
  runs : ∀ before a run b after, text = before ++ a :: run ++ b :: after → isBlank a = false → isBlank b = false →
    (∀ c ∈ run, isBlank c = true) → ∃ left right, inked left = inked before ∧ inked right = inked after ∧
      out = left ++ a :: (if a = '>' ∧ b = '<' then [] else run) ++ b :: right

theorem trimmed_closeGaps (h : Trimmed s) : Trimmed (closeGaps s) where
  head := by rw [head?_closeGaps]; exact h.head
  last := by rw [getLast?_closeGaps]; exact h.last

theorem despaced_withoutGaps (text : String) : Despaced text.toList (withoutGaps text).toList := by
  rw [withoutGaps, String.toList_ofList]
  refine ⟨by simp, trimmed_closeGaps (trimmed_trim _), not_hasGap_closeGaps _, ?_⟩
  intro before a run b after htext ha hb hrun
  have hlast : ∀ c ∈ (before ++ [a]).getLast?, isBlank c = false := by simpa using ha
  have hfront : dropBlanks (before ++ [a]) ≠ [] := by
    intro hnil
    have hink : inked (before ++ [a]) = [] := by rw [← inked_dropBlanks, hnil]; rfl
    simp [inked, ha] at hink
  have hlast' : (dropBlanks (before ++ [a])).getLast? = some a := by simp [getLast?_dropBlanks hfront]
  have hout : closeGaps (trim text.toList) = closeGaps (dropBlanks (before ++ [a])) ++
      (if a = '>' ∧ b = '<' then [] else run) ++ closeGaps (b :: dropTrailing isBlank after) := by
    have hsplit : before ++ a :: run ++ b :: after = (before ++ [a]) ++ run ++ b :: after := by simp
    have hclose := closeGaps_append hfront (by simpa [hlast'] using ha) hrun hb (dropTrailing isBlank after)
    rw [htext, hsplit, trim_append (by simp) hlast hb, hclose, hlast']
    simp
  -- the two characters are the last one in front of the run and the first one behind it
  obtain ⟨left, hleft⟩ : ∃ left, closeGaps (dropBlanks (before ++ [a])) = left ++ [a] := by
    rw [← List.getLast?_eq_some_iff, getLast?_closeGaps, hlast']
  obtain ⟨right, hright⟩ : ∃ right, closeGaps (b :: dropTrailing isBlank after) = b :: right := by
    rw [← List.head?_eq_some_iff, head?_closeGaps, List.head?_cons]
  refine ⟨left, right, ?_, ?_, ?_⟩
  · have hink := congrArg inked hleft
    simpa using hink.symm
  · have hink := congrArg inked hright
    rw [inked_closeGaps, inked_cons b, inked_cons b right, inked_dropTrailing] at hink
    exact (List.append_cancel_left hink).symm
  · rw [hout, hleft, hright]
    simp

/-- Once the blanks are gone, there are no more of them to take. -/
theorem withoutGaps_withoutGaps (text : String) : withoutGaps (withoutGaps text) = withoutGaps text := by
  have h := despaced_withoutGaps text
  rw [withoutGaps, h.trimmed.trim_eq, closeGaps_eq_self h.noGap, String.ofList_toList]

/-- Brackets that follow each other closely: the one behind a gap is in front of the next. -/
example : withoutGaps " <b> > <  a>\n<i > \t< " = "<b> ><  a><i ><" := by decide +kernel

/-- A `spaceless` block renders its body and takes the blanks out of the text. -/
theorem render_spaceless (body : List Node) : (spaceless body).render = withoutGaps <$> renderAll body := by
  rw [render, map_eq_pure_bind]
  rfl

/-- So many `spaceless` blocks around one that has the body, each with nothing else in it. -/
def nestedSpaceless (body : List Node) : Nat → Node
  | 0 => spaceless body
  | n + 1 => spaceless [nestedSpaceless body n]

/-- All but one of the blocks may be left out. -/
theorem render_nestedSpaceless (body : List Node) (n : Nat) :
    (nestedSpaceless body n).render = (spaceless body).render := by
  induction n with
  | zero => rfl
  | succ n ih =>
    have hlone : renderAll [nestedSpaceless body n] = (nestedSpaceless body n).render := by
      simp [renderAll]
    rw [nestedSpaceless, render_spaceless, hlone, ih, render_spaceless, Functor.map_map]
    simp only [withoutGaps_withoutGaps]

/-- A `spaceless` block writes the text of its body without the blanks at the ends and in the gaps, has the effects of
its body, and fails just as that does. Any number of `spaceless` blocks around it change nothing. -/
theorem spaceless_closes_gaps (body : List Node) (s : RenderState) :
    (match renderAll body s with
      | .ok written s' => ∃ out, (spaceless body).render s = .ok out s' ∧ Despaced written.toList out.toList
      | .error e s' => (spaceless body).render s = .error e s') ∧
      ∀ n, (nestedSpaceless body n).render s = (spaceless body).render s := by
  refine ⟨?_, fun n => by rw [render_nestedSpaceless]⟩
  rw [render_spaceless, map_eq_pure_bind, run_bind]
  cases renderAll body s with
  | ok written s' => exact ⟨withoutGaps written, rfl, despaced_withoutGaps written⟩
  | error e s' => rfl

end Node

end TextTemplate
