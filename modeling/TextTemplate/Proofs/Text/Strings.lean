import TextTemplate.Proofs.Expression.Grammar

/-!
# Complete strings

What a complete string is, apart from how it is found, and texts that are made of complete strings and of characters of
a class. The reader finds a complete string at the start of a text just if one stands there.
-/

namespace TextTemplate.Text

/-- A complete string: two quotes of one kind, with what may stand between them. -/
def IsString (s : List Char) : Prop :=
  ∃ q body, isQuote q = true ∧ Pipeline.StringBody q body ∧ s = q :: (body ++ [q])

/-- Texts made of characters of a class and of complete strings. -/
inductive MadeOf (p : Char → Bool) : List Char → Prop
  | nil : MadeOf p []
  | char {c s} (inClass : p c = true) (rest : MadeOf p s) : MadeOf p (c :: s)
  | string {string s} (complete : IsString string) (rest : MadeOf p s) : MadeOf p (string ++ s)

variable {s t string after : List Char} {p : Char → Bool}

theorem closedString?_eq_some_iff : closedString? s = some (string, after) ↔ IsString string ∧ s = string ++ after := by
  constructor
  · intro h
    refine ⟨?_, (closedString?_append h).1⟩
    cases s with
    | nil => simp [closedString?] at h
    | cons q rest =>
      simp only [closedString?] at h
      split_ifs at h with hq
      simp only [Option.map_eq_some_iff, Prod.exists, Prod.mk.injEq] at h
      obtain ⟨inside, b, hclosing, rfl, rfl⟩ := h
      obtain ⟨body, rfl, hbody⟩ := Pipeline.closing?_eq_some hclosing
      exact ⟨q, body, hq, hbody, rfl⟩
  · rintro ⟨⟨q, body, hq, hbody, rfl⟩, rfl⟩
    have hescape : q ≠ '\\' := by
      rcases isQuote_iff.mp hq with rfl | rfl <;> decide
    have hclosing := hbody.closing hescape after
    simp [closedString?, hq, hclosing]

theorem closedString?_eq_none_iff :
    closedString? s = none ↔ ∀ string after, s = string ++ after → ¬IsString string := by
  rw [Option.eq_none_iff_forall_not_mem]
  constructor
  · intro h string after hs hstring
    exact h (string, after) (closedString?_eq_some_iff.mpr ⟨hstring, hs⟩)
  · rintro h ⟨string, after⟩ hsome
    obtain ⟨hstring, hs⟩ := closedString?_eq_some_iff.mp hsome
    exact h string after hs hstring

/-- Nothing that the class can go on with: neither a character of it nor a complete string. -/
def Ends (p : Char → Bool) (s : List Char) : Prop :=
  (∀ c ∈ s.head?, p c = false) ∧ ∀ string after, s = string ++ after → ¬IsString string

/-- Where a complete string ends is fixed by where it starts. -/
theorem IsString.unique {string' after' : List Char} (h : IsString string) (h' : IsString string')
    (heq : string ++ after = string' ++ after') : string = string' ∧ after = after' := by
  have hclosed : closedString? (string ++ after) = some (string, after) := closedString?_eq_some_iff.mpr ⟨h, rfl⟩
  rw [closedString?_eq_some_iff.mpr ⟨h', heq⟩] at hclosed
  cases hclosed
  exact ⟨rfl, rfl⟩

namespace MadeOf

theorem append (h : MadeOf p s) (h' : MadeOf p t) : MadeOf p (s ++ t) := by
  induction h with
  | nil => exact h'
  | char inClass _ ih => exact .char inClass ih
  | string complete _ ih =>
    rw [List.append_assoc]
    exact .string complete ih

theorem of_forall (h : ∀ c ∈ s, p c = true) : MadeOf p s := by
  induction s with
  | nil => exact .nil
  | cons c s ih =>
    obtain ⟨hc, hs⟩ := List.forall_mem_cons.mp h
    exact .char hc (ih hs)

/-- Such a text cannot go further than to where nothing more of it follows. -/
theorem length_le {t' rest rest' : List Char} (hp : ∀ c, isQuote c = true → p c = false) (h : MadeOf p t)
    (hends : Ends p rest) (h' : MadeOf p t') (heq : t' ++ rest' = t ++ rest) : t'.length ≤ t.length := by
  induction h generalizing t' with
  | nil =>
    cases h' with
    | nil => exact le_rfl
    | char inClass _ =>
      have houtside := hends.1 _ (by rw [← List.nil_append rest, ← heq]; rfl)
      rw [houtside] at inClass
      cases inClass
    | string complete _ =>
      rw [List.append_assoc, List.nil_append] at heq
      exact absurd complete (hends.2 _ _ heq.symm)
  | char inClass _ ih =>
    cases h' with
    | nil => exact Nat.zero_le _
    | char _ rest' =>
      simpa using ih rest' (List.cons.inj heq).2
    | string complete _ =>
      obtain ⟨q, body, hq, -, rfl⟩ := complete
      rw [← (List.cons.inj heq).1, hp q hq] at inClass
      cases inClass
  | string complete _ ih =>
    cases h' with
    | nil => exact Nat.zero_le _
    | char inClass _ =>
      obtain ⟨q, body, hq, -, rfl⟩ := complete
      rw [(List.cons.inj heq).1, hp q hq] at inClass
      cases inClass
    | string complete' rest' =>
      rw [List.append_assoc, List.append_assoc] at heq
      obtain ⟨rfl, hlater⟩ := complete'.unique complete heq
      simpa using ih rest' hlater

end MadeOf

end TextTemplate.Text
