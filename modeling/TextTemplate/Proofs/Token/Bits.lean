import TextTemplate.Proofs.Text.Trim

/-!
# Bits that were put together

A text is solid if it is made of plain characters and closed strings, so that no blank stands outside a string.
Solid texts joined by blanks are split into just these bits again.
-/

namespace TextTemplate

namespace Text

variable {q : Char} {s string inside after : List Char}

/-- Only the backslash is special inside a string, apart from the quote that closes it. -/
theorem closing?_cons {c : Char} (hc : c ≠ '\\') (rest : List Char) :
    closing? q (c :: rest) = if c == q then some ([c], rest)
      else (closing? q rest).map fun (inside, after) => (c :: inside, after) :=
  closing?.eq_4 q c rest (fun h _ => hc h) (fun _ _ h _ => hc h)

/-- A string that is closed is closed whatever comes after it. -/
theorem closing?_extend (h : closing? q s = some (inside, after)) (r : List Char) :
    closing? q (s ++ r) = some (inside, after ++ r) := by
  have hne {c : Char} {rest : List Char} (h₁ : c = '\\' → rest = [] → False)
      (h₂ : ∀ d more, c = '\\' → rest = d :: more → False) : c ≠ '\\' := fun hc => by
    cases rest with
    | nil => exact h₁ hc rfl
    | cons d more => exact h₂ d more hc rfl
  fun_induction closing? q s generalizing inside after with
  | case1 | case2 | case3 => simp at h
  | case4 c rest hc ih =>
    simp only [Option.map_eq_some_iff, Prod.exists, Prod.mk.injEq] at h
    obtain ⟨a, b, hab, rfl, rfl⟩ := h
    simp [closing?, hc, ih hab]
  | case5 c rest h₁ h₂ hq =>
    obtain ⟨rfl, rfl⟩ : [c] = inside ∧ rest = after := by simpa using h
    rw [List.cons_append, closing?_cons (hne h₁ h₂), if_pos hq]
  | case6 c rest h₁ h₂ hq ih =>
    simp only [Option.map_eq_some_iff, Prod.exists, Prod.mk.injEq] at h
    obtain ⟨a, b, hab, rfl, rfl⟩ := h
    rw [List.cons_append, closing?_cons (hne h₁ h₂), if_neg hq, ih hab]
    rfl

theorem closedString?_extend (h : closedString? s = some (string, after)) (r : List Char) :
    closedString? (s ++ r) = some (string, after ++ r) := by
  cases s with
  | nil => simp [closedString?] at h
  | cons c rest =>
    simp only [closedString?] at h
    split_ifs at h with hq
    simp only [Option.map_eq_some_iff, Prod.exists, Prod.mk.injEq] at h
    obtain ⟨inside, b, hc, rfl, rfl⟩ := h
    simp [closedString?, hq, closing?_extend hc]

/-- Where no quote stands, no string starts. -/
theorem closedString?_eq_none {c : Char} (hc : isQuote c = false) (rest : List Char) :
    closedString? (c :: rest) = none := by simp [closedString?, hc]

/-- A closed string starts with a quote. -/
theorem exists_quote_of_closedString? (h : closedString? s = some (string, after)) :
    ∃ q rest, s = q :: rest ∧ isQuote q = true := by
  cases s with
  | nil => simp [closedString?] at h
  | cons c rest =>
    simp only [closedString?] at h
    split_ifs at h with hq
    exact ⟨c, rest, rfl, hq⟩

/-- A string ends with the quote that closes it. -/
theorem closing?_getLast {q : Char} {inside : List Char} (h : closing? q s = some (inside, after)) :
    inside.getLast? = some q := by
  fun_induction closing? q s generalizing inside after with
  | case1 | case2 | case3 => simp at h
  | case4 c rest _ ih =>
    simp only [Option.map_eq_some_iff, Prod.exists, Prod.mk.injEq] at h
    obtain ⟨a, b, hab, rfl, rfl⟩ := h
    have hlast := ih hab
    have hne := (closing?_append hab).2
    rw [List.getLast?_cons_cons, List.getLast?_cons_of_ne_nil hne, hlast]
  | case5 c rest _ _ hq =>
    obtain ⟨rfl, rfl⟩ : [c] = inside ∧ rest = after := by simpa using h
    simpa using hq
  | case6 c rest _ _ _ ih =>
    simp only [Option.map_eq_some_iff, Prod.exists, Prod.mk.injEq] at h
    obtain ⟨a, b, hab, rfl, rfl⟩ := h
    rw [List.getLast?_cons_of_ne_nil (closing?_append hab).2, ih hab]

theorem closedString?_getLast (h : closedString? s = some (string, after)) :
    ∃ q, string.getLast? = some q ∧ isQuote q = true := by
  cases s with
  | nil => simp [closedString?] at h
  | cons q rest =>
    simp only [closedString?] at h
    split_ifs at h with hq
    simp only [Option.map_eq_some_iff, Prod.exists, Prod.mk.injEq] at h
    obtain ⟨inside, b, hc, rfl, rfl⟩ := h
    exact ⟨q, by rw [List.getLast?_cons_of_ne_nil (closing?_append hc).2, closing?_getLast hc], hq⟩

end Text

namespace Bits

open Text

/-- Texts made of plain characters and closed strings. -/
inductive Solid : List Char → Prop
  | nil : Solid []
  | plain {c s} (plain : isPlain c = true) (rest : Solid s) : Solid (c :: s)
  | string {s string after} (closed : closedString? s = some (string, after)) (rest : Solid after) : Solid s

/-- A text is cut off at a blank or at its end. -/
def Stops (rest : List Char) : Prop := ∀ c ∈ rest.head?, isBlank c = true

theorem stops_nil : Stops [] := by simp [Stops]

theorem stops_cons {b : Char} (hb : isBlank b = true) (rest : List Char) : Stops (b :: rest) := by
  simpa [Stops] using hb

variable {s rest : List Char}

theorem isPlain_eq_false_of_isBlank {b : Char} (h : isBlank b = true) : isPlain b = false := by
  simp [isPlain, h]

theorem isBlank_eq_false_of_isPlain {c : Char} (h : isPlain c = true) : isBlank c = false := by
  simp only [isPlain, Bool.and_eq_true, Bool.not_eq_true'] at h
  exact h.1

theorem isQuote_eq_false_of_isPlain {c : Char} (h : isPlain c = true) : isQuote c = false := by
  simp only [isPlain, Bool.and_eq_true, Bool.not_eq_true'] at h
  exact h.2

/-- Where a text is cut off, there is neither a plain character nor a string. -/
theorem Stops.none (h : Stops rest) : rest.takeWhile isPlain = [] ∧ rest.dropWhile isPlain = rest ∧
    closedString? rest = .none := by
  cases rest with
  | nil => exact ⟨rfl, rfl, rfl⟩
  | cons b rest =>
    have hb : isBlank b = true := h b rfl
    simp [isPlain_eq_false_of_isBlank hb, closedString?_eq_none (isQuote_eq_false_of_isBlank hb)]

/-- Plain characters go before a solid text. -/
theorem solid_append {p : List Char} (hp : ∀ c ∈ p, isPlain c = true) (h : Solid s) : Solid (p ++ s) := by
  induction p with
  | nil => exact h
  | cons c p ih =>
    obtain ⟨hc, hrest⟩ := List.forall_mem_cons.mp hp
    exact .plain hc (ih hrest)

/-- A solid text is taken as plain runs and strings up to where it is cut off. -/
theorem Solid.strings (h : Solid s) (hrest : Stops rest) :
    (s ++ rest).takeWhile isPlain ++ (strings ((s ++ rest).dropWhile isPlain)).1 = s ∧
      (strings ((s ++ rest).dropWhile isPlain)).2 = rest := by
  induction h with
  | nil =>
    obtain ⟨htake, hdrop, hnone⟩ := hrest.none
    rw [List.nil_append, htake, hdrop, Bits.strings.eq_def]
    split
    · exact ⟨rfl, rfl⟩
    · rename_i hsome
      rw [hnone] at hsome
      cases hsome
  | plain hplain _ ih =>
    simp only [List.cons_append, List.takeWhile_cons, List.dropWhile_cons, hplain, if_true]
    exact ⟨congrArg _ ih.1, ih.2⟩
  | @string s string after hclosed _ ih =>
    obtain ⟨q, more, hs, hq⟩ := exists_quote_of_closedString? hclosed
    have hplain : isPlain q = false := by simp [isPlain, hq]
    have htake : (s ++ rest).takeWhile isPlain = [] ∧ (s ++ rest).dropWhile isPlain = s ++ rest := by
      simp [hs, hplain]
    have hextend := closedString?_extend hclosed rest
    rw [htake.1, htake.2, Bits.strings.eq_def]
    split
    · rename_i hnone
      rw [hextend] at hnone
      cases hnone
    · rename_i string' after' hsome
      rw [hextend] at hsome
      cases hsome
      refine ⟨?_, ih.2⟩
      calc
        [] ++ (string ++ (after ++ rest).takeWhile isPlain ++
            (Bits.strings ((after ++ rest).dropWhile isPlain)).1) = string ++ after := by
          rw [List.nil_append, List.append_assoc, ih.1]
        _ = s := (closedString?_append hclosed).1.symm

/-- A solid text without strings is plain. -/
theorem Solid.all_plain (h : Solid s)
    (hnone : closedString? ((s ++ rest).dropWhile isPlain) = .none) : ∀ c ∈ s, isPlain c = true := by
  induction h with
  | nil => simp
  | plain hplain _ ih =>
    simp only [List.cons_append, List.dropWhile_cons, hplain, if_true] at hnone
    exact List.forall_mem_cons.mpr ⟨hplain, ih hnone⟩
  | @string s string after hclosed _ _ =>
    obtain ⟨q, more, hs, hq⟩ := exists_quote_of_closedString? hclosed
    have hplain : isPlain q = false := by simp [isPlain, hq]
    have hdrop : (s ++ rest).dropWhile isPlain = s ++ rest := by simp [hs, hplain]
    rw [hdrop, closedString?_extend hclosed] at hnone
    cases hnone

/-- The first bit of a solid text that is cut off is the text. -/
theorem Solid.first (h : Solid s) (hrest : Stops rest) : first (s ++ rest) = (s, rest) := by
  rw [Bits.first]
  split_ifs with hsome
  · obtain ⟨htake, hdrop⟩ := h.strings hrest
    rw [htake, hdrop]
  · have hall := h.all_plain (by simpa using hsome)
    have hblank : ∀ c ∈ s, (!isBlank c) = true := fun c hc => by
      have := hall c hc
      simp only [isPlain, Bool.and_eq_true] at this
      exact this.1
    rw [List.takeWhile_append_of_pos hblank, List.dropWhile_append_of_pos hblank]
    cases rest with
    | nil => simp
    | cons b rest => simp [show isBlank b = true from hrest b rfl]

/-- A solid text starts with no blank. -/
theorem Solid.head (h : Solid s) : ∀ c ∈ s.head?, isBlank c = false := by
  cases h with
  | nil => simp
  | @plain c s hplain _ =>
    intro d hd
    obtain rfl : c = d := by simpa using hd
    exact isBlank_eq_false_of_isPlain hplain
  | string hclosed _ =>
    obtain ⟨q, more, rfl, hq⟩ := exists_quote_of_closedString? hclosed
    intro d hd
    obtain rfl : q = d := by simpa using hd
    exact isBlank_eq_false_of_isQuote hq

/-- A solid text ends with no blank. -/
theorem Solid.last (h : Solid s) : ∀ c ∈ s.getLast?, isBlank c = false := by
  induction h with
  | nil => simp
  | @plain c s hplain _ ih =>
    cases s with
    | nil => simpa using isBlank_eq_false_of_isPlain hplain
    | cons d s => simpa using ih
  | @string s string after hclosed _ ih =>
    obtain ⟨rfl, -⟩ := closedString?_append hclosed
    cases after with
    | nil =>
      obtain ⟨q, hlast, hq⟩ := closedString?_getLast hclosed
      simpa [hlast] using isBlank_eq_false_of_isQuote hq
    | cons d after =>
      rw [List.getLast?_append_of_ne_nil _ (List.cons_ne_nil d after)]
      exact ih

theorem Solid.trimmed (h : Solid s) : Trimmed s := ⟨h.head, h.last⟩

/-- Splitting does not see the blanks at the start. -/
theorem split_blank {b : Char} (hb : isBlank b = true) (rest : List Char) : split (b :: rest) = split rest := by
  have hdrop : dropBlanks (b :: rest) = dropBlanks rest := by simp [dropBlanks, hb]
  rw [split.eq_def, split.eq_def rest, hdrop]

/-- A solid text that is cut off is the first bit. -/
theorem Solid.split_append (h : Solid s) (hne : s ≠ []) (hrest : Stops rest) :
    split (s ++ rest) = s :: split rest := by
  obtain ⟨c, more, rfl⟩ := List.exists_cons_of_ne_nil hne
  have hdrop : dropBlanks (c :: more ++ rest) = c :: (more ++ rest) :=
    dropBlanks_eq_self fun d hd => h.head d (by simpa using hd)
  have hfirst := h.first hrest
  rw [List.cons_append] at hfirst
  rw [split.eq_def]
  split
  · rename_i hnil
    rw [hdrop] at hnil
    cases hnil
  · rename_i d tail hcons
    rw [hdrop] at hcons
    cases hcons
    rw [hfirst]

theorem toList_intercalate_cons_cons (b c : String) (bits : List String) :
    (" ".intercalate (b :: c :: bits)).toList = b.toList ++ ' ' :: (" ".intercalate (c :: bits)).toList := by
  simp [String.intercalate_cons_cons]

/-- Solid texts joined by blanks are split into the same texts. -/
theorem ofString_intercalate {bits : List String} (h : ∀ b ∈ bits, Solid b.toList ∧ b ≠ "") :
    ofString (" ".intercalate bits) = bits := by
  have hsplit : split (" ".intercalate bits).toList = bits.map String.toList := by
    induction bits with
    | nil => decide +kernel
    | cons b bits ih =>
      obtain ⟨⟨hb, hne⟩, hbits⟩ := List.forall_mem_cons.mp h
      have hne' : b.toList ≠ [] := by simpa using hne
      cases bits with
      | nil =>
        have hself := hb.split_append hne' stops_nil
        have hnil : split [] = [] := by rw [split.eq_def]; rfl
        rw [List.append_nil, hnil] at hself
        simpa using hself
      | cons c bits =>
        rw [toList_intercalate_cons_cons, hb.split_append hne' (stops_cons (by decide) _),
          split_blank (by decide), ih hbits]
        rfl
  rw [ofString, hsplit, List.map_map]
  simp

/-- Solid texts joined by blanks have no blanks around them. -/
theorem trimmed_intercalate {bits : List String} (h : ∀ b ∈ bits, Solid b.toList ∧ b ≠ "") :
    Trimmed (" ".intercalate bits).toList ∧ (bits ≠ [] → " ".intercalate bits ≠ "") := by
  induction bits with
  | nil => exact ⟨by simpa using trimmed_nil, fun hne => absurd rfl hne⟩
  | cons b bits ih =>
    obtain ⟨⟨hb, hne⟩, hbits⟩ := List.forall_mem_cons.mp h
    have hne' : b.toList ≠ [] := by simpa using hne
    cases bits with
    | nil => simpa [hne] using hb.trimmed
    | cons c bits =>
      obtain ⟨hlater, hlater_ne⟩ := ih hbits
      have htail : (" ".intercalate (c :: bits)).toList ≠ [] :=
        fun hnil => hlater_ne (by simp) (String.toList_eq_nil_iff.mp hnil)
      have hjoin := toList_intercalate_cons_cons b c bits
      refine ⟨?_, fun _ hempty => ?_⟩
      · rw [hjoin]
        simpa using hb.trimmed.append hlater hne' htail [' ']
      · rw [hempty] at hjoin
        simp at hjoin

end Bits

end TextTemplate
