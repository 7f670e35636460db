import TextTemplate.Expression.Pipeline
import TextTemplate.Proofs.Token.Bits
import TextTemplate.Proofs.Token.Reading

/-!
# Expressions as they are written

A text that compiles to an expression is an operand and filter calls, with nothing around them, so no blank
stands at its ends. If no blank stands outside the strings in it either, it is a single bit of a tag header.
-/

namespace TextTemplate

namespace Text

/-- The characters of a text that stand outside closed strings. -/
def outside (s : List Char) : List Char :=
  match s with
  | [] => []
  | c :: rest =>
    match _h : closedString? (c :: rest) with
    | some (_, after) => outside after
    | none => c :: outside rest
termination_by s.length
decreasing_by
  · exact closedString?_length_lt _h
  · simp

/-- No blank stands outside the closed strings of a text. -/
def BlankFree (s : List Char) : Prop := ∀ c ∈ outside s, isBlank c = false

instance : DecidablePred BlankFree := fun s => List.decidableBAll (isBlank · = false) (outside s)

variable {s string after : List Char}

theorem outside_string (h : closedString? s = some (string, after)) : outside s = outside after := by
  cases s with
  | nil => simp [closedString?] at h
  | cons c rest =>
    rw [outside]
    split
    · rename_i hsome
      rw [h] at hsome
      cases hsome
      rfl
    · rename_i hnone
      rw [h] at hnone
      cases hnone

theorem outside_cons {c : Char} (hc : isQuote c = false) (rest : List Char) :
    outside (c :: rest) = c :: outside rest := by
  rw [outside]
  split
  · rename_i hsome
    rw [closedString?_eq_none hc] at hsome
    cases hsome
  · rfl

/-- What follows characters that are no quotes. -/
theorem BlankFree.of_append {p : List Char} (hp : ∀ c ∈ p, isQuote c = false) (h : BlankFree (p ++ s)) :
    (∀ c ∈ p, isBlank c = false) ∧ BlankFree s := by
  induction p with
  | nil => exact ⟨by simp, h⟩
  | cons c p ih =>
    obtain ⟨hc, hlater⟩ := List.forall_mem_cons.mp hp
    rw [BlankFree, List.cons_append, outside_cons hc] at h
    obtain ⟨hblank, hrest⟩ := List.forall_mem_cons.mp h
    obtain ⟨hall, hfree⟩ := ih hlater hrest
    exact ⟨List.forall_mem_cons.mpr ⟨hblank, hall⟩, hfree⟩

end Text

namespace Pipeline

open Text Bits

/-- An operand as it stands in front of a text: a closed string, or plain characters. -/
def IsOperand (found after : List Char) : Prop :=
  closedString? (found ++ after) = some (found, after) ∨ ∀ c ∈ found, isPlain c = true

variable {s found after rest : List Char}

theorem isPlain_of_isPathChar {c : Char} (h : isPathChar c = true) : isPlain c = true := by
  rcases Bool.or_eq_true_iff.mp h with hword | hdot
  · exact isPlain_of_isWord hword
  · obtain rfl : c = '.' := by simpa using hdot
    decide

theorem isPlain_of_isNumberChar {c : Char} (h : isNumberChar c = true) : isPlain c = true := by
  simp only [isNumberChar, Bool.or_eq_true, beq_iff_eq] at h
  rcases h with (hdigit | rfl) | rfl
  · exact isPlain_of_isDecimal hdigit
  · decide
  · decide

theorem forall_isPlain_takeWhile {p : Char → Bool} (hp : ∀ {c}, p c = true → isPlain c = true)
    (s : List Char) : ∀ c ∈ s.takeWhile p, isPlain c = true :=
  fun _ hc => hp (List.mem_takeWhile_imp hc)

/-- An unquoted operand is made of plain characters. -/
theorem bare?_eq_some (h : bare? s = some (found, after)) :
    s = found ++ after ∧ found ≠ [] ∧ ∀ c ∈ found, isPlain c = true := by
  unfold bare? at h
  split at h
  · cases h
  · rename_i c rest
    split_ifs at h with hpath hsign
    · cases h
      refine ⟨by simp, by simp, List.forall_mem_cons.mpr ⟨isPlain_of_isPathChar hpath, ?_⟩⟩
      exact forall_isPlain_takeWhile isPlain_of_isPathChar rest
    · split at h
      · rename_i d more
        split_ifs at h with hdigit
        cases h
        have hc : isPlain c = true := by
          simp only [Bool.or_eq_true, beq_iff_eq] at hsign
          rcases hsign with rfl | rfl <;> decide
        refine ⟨by simp, by simp, List.forall_mem_cons.mpr ⟨hc, List.forall_mem_cons.mpr ⟨?_, ?_⟩⟩⟩
        · exact isPlain_of_isDecimal hdigit
        · exact forall_isPlain_takeWhile isPlain_of_isNumberChar more
      · cases h

theorem operand?_eq_some (h : operand? s = some (found, after)) :
    s = found ++ after ∧ found ≠ [] ∧ IsOperand found after := by
  unfold operand? at h
  split at h
  · rename_i hclosed
    cases h
    obtain ⟨hs, hne⟩ := closedString?_append hclosed
    exact ⟨hs, hne, .inl (hs ▸ hclosed)⟩
  · obtain ⟨hs, hne, hplain⟩ := bare?_eq_some h
    exact ⟨hs, hne, .inr hplain⟩

/-- An operand starts with no blank. -/
theorem IsOperand.head (h : IsOperand found after) : ∀ c ∈ found.head?, isBlank c = false := by
  intro c hc
  rcases h with hclosed | hplain
  · obtain ⟨q, more, hs, hq⟩ := exists_quote_of_closedString? hclosed
    have hne := (closedString?_append hclosed).2
    have hhead : (found ++ after).head? = some c := by rwa [List.head?_append_of_ne_nil _ hne]
    obtain rfl : q = c := by simpa [hs] using hhead
    exact isBlank_eq_false_of_isQuote hq
  · exact isBlank_eq_false_of_isPlain (hplain c (List.mem_of_mem_head? hc))

/-- An operand ends with no blank. -/
theorem IsOperand.getLast (h : IsOperand found after) : ∀ c ∈ found.getLast?, isBlank c = false := by
  intro c hc
  rcases h with hclosed | hplain
  · obtain ⟨q, hlast, hq⟩ := closedString?_getLast hclosed
    rw [hlast] at hc
    obtain rfl : q = c := by simpa using hc
    exact isBlank_eq_false_of_isQuote hq
  · exact isBlank_eq_false_of_isPlain (hplain c (List.mem_of_mem_getLast? hc))

/-- Plain characters go before a text that is solid if it is free of blanks. -/
theorem solid_of_plain {p : List Char} (hp : ∀ c ∈ p, isPlain c = true) (h : BlankFree s → Solid s) :
    BlankFree (p ++ s) → Solid (p ++ s) := by
  intro hfree
  obtain ⟨-, hfree'⟩ := hfree.of_append fun c hc => isQuote_eq_false_of_isPlain (hp c hc)
  exact solid_append hp (h hfree')

/-- An operand goes before a text that is solid if it is free of blanks. -/
theorem IsOperand.solid (h : IsOperand found after) (hafter : BlankFree after → Solid after) :
    BlankFree (found ++ after) → Solid (found ++ after) := by
  rcases h with hclosed | hplain
  · intro hfree
    rw [BlankFree, outside_string hclosed] at hfree
    exact .string hclosed (hafter hfree)
  · exact solid_of_plain hplain hafter

/-- What stands between a filter name and the text after the call: nothing, or a colon and an operand. -/
def IsArgument (call after : List Char) : Prop := call = [] ∨ ∃ found, call = ':' :: found ∧ IsOperand found after

theorem argument?_eq_some (h : argument? s = some (found, after)) :
    s = ':' :: found ++ after ∧ IsArgument (':' :: found) after := by
  unfold argument? at h
  split at h
  · obtain ⟨rfl, -, hoperand⟩ := operand?_eq_some h
    exact ⟨rfl, .inr ⟨found, rfl, hoperand⟩⟩
  · cases h

/-- A filter call as it stands in front of a text: a bar with blanks around it, a name and its argument. -/
theorem step?_eq_some {step : Step} (h : step? s = some (step, after)) :
    ∃ b₁ b₂ name call, s = b₁ ++ '|' :: (b₂ ++ (name ++ (call ++ after))) ∧ (∀ c ∈ b₁, isBlank c = true) ∧
      (∀ c ∈ b₂, isBlank c = true) ∧ name ≠ [] ∧ (∀ c ∈ name, isWord c = true) ∧ IsArgument call after := by
  unfold step? at h
  split at h
  · rename_i more hbar
    dsimp only at h
    split_ifs at h with hname
    have hs : s = s.takeWhile isBlank ++ '|' :: more := by
      rw [← hbar]
      exact List.takeWhile_append_dropWhile.symm
    have hmore : more = more.takeWhile isBlank ++ dropBlanks more := List.takeWhile_append_dropWhile.symm
    have hbody : dropBlanks more = (dropBlanks more).takeWhile isWord ++ (dropBlanks more).dropWhile isWord :=
      List.takeWhile_append_dropWhile.symm
    obtain ⟨call, hcall, hargument⟩ : ∃ call, (dropBlanks more).dropWhile isWord = call ++ after ∧
        IsArgument call after := by
      split at h
      · rename_i argument after' hsome
        cases h
        exact ⟨':' :: argument, argument?_eq_some hsome⟩
      · cases h
        exact ⟨[], rfl, .inl rfl⟩
    refine ⟨s.takeWhile isBlank, more.takeWhile isBlank, (dropBlanks more).takeWhile isWord, call, ?_,
      fun c hc => List.mem_takeWhile_imp hc, fun c hc => List.mem_takeWhile_imp hc, by simpa using hname,
      fun c hc => List.mem_takeWhile_imp hc, hargument⟩
    rw [← hcall, ← hbody, ← hmore]
    exact hs
  · cases h

/-- What is asked of the rest of an expression: no blank at its end, and no blank at all outside strings if it
is to be solid. -/
structure Closes (s : List Char) : Prop where
  last : ∀ c ∈ s.getLast?, isBlank c = false
  solid : BlankFree s → Solid s

theorem closes_nil : Closes [] := ⟨by simp, fun _ => .nil⟩

/-- Something that ends with no blank goes before what closes an expression. -/
theorem Closes.append {p : List Char} (h : Closes s) (hp : ∀ c ∈ p.getLast?, isBlank c = false)
    (hsolid : BlankFree (p ++ s) → Solid (p ++ s)) : Closes (p ++ s) where
  last c hc := by
    cases s with
    | nil => exact hp c (by simpa using hc)
    | cons d s =>
      rw [List.getLast?_append_of_ne_nil _ (List.cons_ne_nil d s)] at hc
      exact h.last c hc
  solid := hsolid

theorem eq_nil_of_isBlank {b : List Char} (h : ∀ c ∈ b, isBlank c = true) (h' : ∀ c ∈ b, isBlank c = false) :
    b = [] := by
  cases b with
  | nil => rfl
  | cons c b => exact absurd (h c (by simp)) (by simp [h' c (by simp)])

/-- Plain characters go before what closes an expression. -/
theorem Closes.plain {p : List Char} (h : Closes s) (hp : ∀ c ∈ p, isPlain c = true) : Closes (p ++ s) :=
  h.append (fun c hc => isBlank_eq_false_of_isPlain (hp c (List.mem_of_mem_getLast? hc)))
    (solid_of_plain hp h.solid)

/-- An operand goes before what closes an expression. -/
theorem Closes.operand (h : Closes after) (hoperand : IsOperand found after) : Closes (found ++ after) :=
  h.append hoperand.getLast (hoperand.solid h.solid)

/-- Blanks go before what closes an expression, unless that is empty. -/
theorem Closes.blanks {b : List Char} (h : Closes s) (hs : s ≠ []) (hb : ∀ c ∈ b, isBlank c = true) :
    Closes (b ++ s) where
  last c hc := by
    rw [List.getLast?_append_of_ne_nil _ hs] at hc
    exact h.last c hc
  solid hfree := by
    obtain ⟨hnone, hfree'⟩ := hfree.of_append fun c hc => isQuote_eq_false_of_isBlank (hb c hc)
    obtain rfl := eq_nil_of_isBlank hb hnone
    exact h.solid hfree'

/-- A filter call closes an expression that the calls after it close. -/
theorem step?_closes {step : Step} (h : step? s = some (step, after)) (hafter : Closes after) : Closes s := by
  obtain ⟨b₁, b₂, name, call, rfl, hb₁, hb₂, hne, hname, hcall⟩ := step?_eq_some h
  have hcolon : isPlain ':' = true := by decide
  have hstroke : isPlain '|' = true := by decide
  have hargument : Closes (call ++ after) := by
    rcases hcall with rfl | ⟨found, rfl, hoperand⟩
    · exact hafter
    · exact (hafter.operand hoperand).plain (List.forall_mem_singleton.mpr hcolon)
  have hnamed : Closes (name ++ (call ++ after)) :=
    hargument.plain fun c hc => isPlain_of_isWord (hname c hc)
  have hbody : Closes (b₂ ++ (name ++ (call ++ after))) := hnamed.blanks (by simp [hne]) hb₂
  have hbar : Closes (['|'] ++ (b₂ ++ (name ++ (call ++ after)))) :=
    hbody.plain (List.forall_mem_singleton.mpr hstroke)
  exact hbar.blanks (by simp) hb₁

/-- Filter calls that compile close an expression. -/
theorem compileSteps_closes {lookup : FilterLookup} {source : List Char} {calls : List FilterCall}
    (h : compileSteps lookup source rest = .ok calls) : Closes rest := by
  fun_induction compileSteps lookup source rest generalizing calls with
  | case1 rest step after hstep ih =>
    obtain ⟨call, -, hlater⟩ := bind_eq_ok_iff.mp h
    obtain ⟨more, hmore, -⟩ := bind_eq_ok_iff.mp hlater
    exact step?_closes hstep (ih hmore)
  | case2 rest hstep hempty =>
    rw [List.isEmpty_iff.mp hempty]
    exact closes_nil
  | case3 rest hstep hempty => cases h

/-- An expression that compiles has no blanks around it, and it is a single bit if no blank stands outside the
strings in it. -/
theorem compile_eq_ok {lookup : FilterLookup} {source : String} {e : Expression}
    (h : compile lookup source = .ok e) : e.source = source ∧ source ≠ "" ∧ Trimmed source.toList ∧
      (BlankFree source.toList → Solid source.toList) := by
  unfold compile compileChars at h
  split_ifs at h with hempty
  · cases h
  split at h
  · rename_i found rest hfound
    obtain ⟨hs, hne, hoperand⟩ := operand?_eq_some hfound
    obtain ⟨operand, -, hlater⟩ := bind_eq_ok_iff.mp h
    obtain ⟨calls, hcalls, he⟩ := bind_eq_ok_iff.mp hlater
    have hcloses : Closes source.toList := hs ▸ (compileSteps_closes hcalls).operand hoperand
    obtain rfl : (⟨String.ofList source.toList, operand, calls⟩ : Expression) = e := Except.ok.inj he
    refine ⟨by simp, by simpa using hempty, ⟨fun c hc => ?_, hcloses.last⟩, hcloses.solid⟩
    rw [hs, List.head?_append_of_ne_nil _ hne] at hc
    exact hoperand.head c hc
  · split at h <;> cases h

end Pipeline

end TextTemplate
