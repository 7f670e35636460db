import TextTemplate.Proofs.Condition.Acceptance
import TextTemplate.Proofs.Expression.Grammar
import TextTemplate.Proofs.Compile.WellNested

/-!
# Expressions as conditions and in tag headers

Three readers look for the end of an expression, each in its own way: that of expressions, which knows operands and
filter calls; that of tag headers, which stops at blanks; and that of conditions, which also stops at parentheses
and the signs of operators. Here they are shown to find the same end: an expression with no blank outside its
strings is one bit of a header and one token of a condition.

The characters of an expression outside its strings are all ones that stand for themselves in an operand of a
condition, and the strings are found in the same places.
-/

namespace TextTemplate

namespace ConditionToken

open Text

/-- A text that is taken as one operand to its end. -/
def Unbroken (s : List Char) : Prop := takeOperand s = (s, [])

variable {s p inside after : List Char}

theorem unbroken_nil : Unbroken [] := by rw [Unbroken, takeOperand.eq_def]

/-- Characters that stand for themselves go before an unbroken text. -/
theorem Unbroken.plain (h : Unbroken s) (hp : ∀ c ∈ p, isOperandChar c = true) : Unbroken (p ++ s) := by
  induction p with
  | nil => exact h
  | cons c p ih =>
    obtain ⟨hc, hlater⟩ := List.forall_mem_cons.mp hp
    have hrest : takeOperand (p ++ s) = (p ++ s, []) := ih hlater
    rw [Unbroken, List.cons_append, takeOperand.eq_def]
    simp only [if_pos hc, hrest]

/-- No quote stands for itself. -/
theorem isOperandChar_eq_false_of_isQuote {c : Char} (h : isQuote c = true) : isOperandChar c = false := by
  simp [isOperandChar, h]

/-- A closed string goes before an unbroken text. -/
theorem Unbroken.string (h : Unbroken after) (hclosed : closedString? s = some (inside, after)) : Unbroken s := by
  have hrest : takeOperand after = (after, []) := h
  obtain ⟨q, more, rfl, hq⟩ := exists_quote_of_closedString? hclosed
  rw [Unbroken, takeOperand.eq_def]
  simp only [isOperandChar_eq_false_of_isQuote hq, Bool.false_eq_true, if_false]
  split
  · rename_i string' after' hsome
    rw [hclosed] at hsome
    cases hsome
    rw [hrest, ← (closedString?_append hclosed).1]
  · rename_i hnone
    rw [hclosed] at hnone
    cases hnone

/-- What an operand can start with. -/
theorem Unbroken.head {c : Char} (h : Unbroken (c :: s)) : isOperandChar c = true ∨ isQuote c = true := by
  have htake : takeOperand (c :: s) = (c :: s, []) := h
  rw [takeOperand.eq_def] at htake
  dsimp only at htake
  split_ifs at htake with hc
  · exact .inl hc
  · split at htake
    · rename_i hclosed
      obtain ⟨q, more, hs, hq⟩ := exists_quote_of_closedString? hclosed
      cases hs
      exact .inr hq
    · cases htake

/-- A text that an operand starts is a keyword or an operand and what is after it. -/
theorem first?_of_head {c : Char} {operand : List Char} (hhead : isOperandChar c = true ∨ isQuote c = true)
    (htake : takeOperand (c :: s) = (operand, after)) (hne : operand ≠ []) : isBlank c = false ∧
    first? c s = some (if isKeyword (String.ofList operand) then .keyword else .operand, operand, after) := by
  have hspecial : isBlank c = false ∧ c ≠ '(' ∧ c ≠ ')' ∧ c ≠ '=' ∧ c ≠ '!' ∧ c ≠ '<' ∧ c ≠ '>' := by
    rcases hhead with hchar | hquote
    · obtain ⟨hblank, -, hsigns⟩ : isBlank c = false ∧ isQuote c = false ∧
          c ≠ '(' ∧ c ≠ ')' ∧ c ≠ '=' ∧ c ≠ '!' ∧ c ≠ '<' ∧ c ≠ '>' := by
        simpa [isOperandChar, and_assoc] using hchar
      exact ⟨hblank, hsigns⟩
    · refine ⟨isBlank_eq_false_of_isQuote hquote, ?_⟩
      rcases isQuote_iff.mp hquote with rfl | rfl <;> decide
  obtain ⟨hblank, hopen, hclose, hequal, hunequal, hless, hgreater⟩ := hspecial
  have hoperator : operator? (c :: s) = none := by
    rw [operator?.eq_def]
    split <;> simp_all
  refine ⟨hblank, ?_⟩
  obtain ⟨d, more, rfl⟩ := List.exists_cons_of_ne_nil hne
  rw [ConditionToken.first?, if_neg (by simp [hopen, hclose]), hoperator, htake]

/-- An unbroken text is a keyword or an operand. -/
theorem Unbroken.first? {c : Char} (h : Unbroken (c :: s)) : isBlank c = false ∧
    first? c s = some (if isKeyword (String.ofList (c :: s)) then .keyword else .operand, c :: s, []) :=
  first?_of_head h.head h (List.cons_ne_nil c s)

/-- An unbroken text is a single token. -/
theorem Unbroken.scan (h : Unbroken s) (hne : s ≠ []) (offset : Nat) : scan s offset =
    .ok [⟨if isKeyword (String.ofList s) then .keyword else .operand, String.ofList s, offset⟩,
      ⟨.ending, "", offset + s.length⟩] := by
  obtain ⟨c, rest, rfl⟩ := List.exists_cons_of_ne_nil hne
  obtain ⟨hblank, hfirst⟩ := h.first?
  have hend (n : Nat) : ConditionToken.scan [] n = .ok [⟨.ending, "", n⟩] := by
    rw [ConditionToken.scan.eq_def]
  rw [ConditionToken.scan.eq_def]
  simp only [hblank, Bool.false_eq_true, if_false]
  split
  · rename_i hnone
    rw [hfirst] at hnone
    cases hnone
  · rename_i hsome
    rw [hfirst] at hsome
    cases hsome
    rw [hend]
    rfl

theorem isKeyword_iff {s : String} : isKeyword s = true ↔ s ∈ ["and", "or", "not", "in"] := by
  simp [isKeyword, or_assoc]

end ConditionToken

namespace Pipeline

open Text Bits ConditionToken

variable {found after rest : List Char} {step : Step} {steps : List Step}

/-- What is neither a blank nor a quote nor special in a condition stands for itself in an operand. -/
theorem isOperandChar_of {q : Char → Bool} (hplain : ∀ {c}, q c = true → isPlain c = true)
    (hspecial : ['(', ')', '=', '!', '<', '>'].any q = false) {c : Char} (h : q c = true) :
    isOperandChar c = true := by
  have hne : ∀ d ∈ ['(', ')', '=', '!', '<', '>'], c ≠ d := by
    rintro d hd rfl
    exact List.any_eq_false.mp hspecial c hd h
  simp [isOperandChar, isBlank_eq_false_of_isPlain (hplain h), isQuote_eq_false_of_isPlain (hplain h),
    hne '(' (by simp), hne ')' (by simp), hne '=' (by simp), hne '!' (by simp), hne '<' (by simp), hne '>' (by simp)]

theorem isOperandChar_of_isWord {c : Char} (h : isWord c = true) : isOperandChar c = true :=
  isOperandChar_of isPlain_of_isWord (by decide) h

theorem isOperandChar_of_isDecimal {c : Char} (h : isDecimal c = true) : isOperandChar c = true :=
  isOperandChar_of isPlain_of_isDecimal (by decide) h

/-- Unbroken, if no blank stands outside the strings; a condition stops at every other blank. -/
def Continues (s : List Char) : Prop := BlankFree s → Unbroken s

theorem isQuote_eq_false_of_isOperandChar {c : Char} (h : isOperandChar c = true) : isQuote c = false := by
  cases hq : isQuote c with
  | false => rfl
  | true => exact absurd h (by simp [isOperandChar_eq_false_of_isQuote hq])

theorem Continues.plain {p s : List Char} (h : Continues s) (hp : ∀ c ∈ p, isOperandChar c = true) :
    Continues (p ++ s) := by
  intro hfree
  obtain ⟨-, hs⟩ := hfree.of_append fun c hc => isQuote_eq_false_of_isOperandChar (hp c hc)
  exact (h hs).plain hp

/-- Blanks outside strings are excluded, so none stand before what continues. -/
theorem Continues.blanks {b s : List Char} (h : Continues s) (hb : ∀ c ∈ b, isBlank c = true) :
    Continues (b ++ s) := by
  intro hfree
  obtain ⟨hnone, hs⟩ := hfree.of_append fun c hc => isQuote_eq_false_of_isBlank (hb c hc)
  obtain rfl := eq_nil_of_isBlank hb hnone
  exact h hs

/-- An operand of any form goes before what continues. -/
theorem OperandText.continues (h : OperandText found) (hafter : Continues after) : Continues (found ++ after) := by
  cases h with
  | @string q body hq hbody =>
    have hescape : q ≠ '\\' := by
      rcases isQuote_iff.mp hq with rfl | rfl <;> decide
    have hclosed : closedString? (q :: (body ++ [q]) ++ after) = some (q :: (body ++ [q]), after) := by
      simp [closedString?, hq, hbody.closing hescape after]
    intro hfree
    rw [BlankFree, outside_string hclosed] at hfree
    exact (hafter hfree).string hclosed
  | word _ hchars =>
    refine hafter.plain fun c hc => ?_
    rcases hchars c hc with hword | rfl
    · exact isOperandChar_of_isWord hword
    · decide
  | @number sign d s hsign hdigit hmore =>
    have hs : ∀ c ∈ s, isOperandChar c = true := by
      intro c hc
      rcases hmore c hc with hdecimal | rfl | rfl
      · exact isOperandChar_of_isDecimal hdecimal
      · decide
      · decide
    have hsigned : isOperandChar sign = true := by rcases hsign with rfl | rfl <;> decide
    exact hafter.plain (List.forall_mem_cons.mpr
      ⟨hsigned, List.forall_mem_cons.mpr ⟨isOperandChar_of_isDecimal hdigit, hs⟩⟩)

/-- A filter call goes before what continues. -/
theorem StepText.continues {call : List Char} (h : StepText call step) (hafter : Continues after) :
    Continues (call ++ after) := by
  have hbar {body : List Char} (hbody : Continues (body ++ after)) {before blanks : List Char}
      (houter : ∀ c ∈ before, isBlank c = true) (hinner : ∀ c ∈ blanks, isBlank c = true) :
      Continues (before ++ '|' :: (blanks ++ body) ++ after) := by
    have hstroke : Continues (['|'] ++ (blanks ++ (body ++ after))) :=
      (hbody.blanks hinner).plain (List.forall_mem_singleton.mpr (by decide))
    simpa using hstroke.blanks houter
  cases h with
  | bare houter hinner _ hchars =>
    exact hbar (hafter.plain fun c hc => isOperandChar_of_isWord (hchars c hc)) houter hinner
  | @withArgument before blanks name argument houter hinner _ hchars hoperand =>
    have hargument : Continues ([':'] ++ (argument ++ after)) :=
      (hoperand.continues hafter).plain (List.forall_mem_singleton.mpr (by decide))
    have hnamed : Continues ((name ++ ':' :: argument) ++ after) := by
      simpa using hargument.plain fun c hc => isOperandChar_of_isWord (hchars c hc)
    exact hbar hnamed houter hinner

theorem StepsText.continues (h : StepsText rest steps) : Continues rest := by
  induction h with
  | nil => exact fun _ => unbroken_nil
  | cons hfirst _ ih => exact hfirst.continues ih

/-- An expression with no blank outside its strings is the content of a tag that holds nothing else, a single bit
of a tag header, and a single token of a condition, at its start and up to its end. It is an operand there, and a
condition of its own, unless it is one of the four words that conditions keep for themselves. -/
theorem compile_lone_operand {lookup : FilterLookup} {source : String} {e : Expression}
    (h : compile lookup source = .ok e) (hfree : BlankFree source.toList) :
    (∀ kind line, (Lexer.delimitedToken kind source.toList line).content = source) ∧
      Bits.ofString source = [source] ∧
      ConditionToken.ofString source =
        .ok [⟨if source ∈ ["and", "or", "not", "in"] then .keyword else .operand, source, 0⟩,
          ⟨.ending, "", source.length⟩] ∧
      (source ∉ ["and", "or", "not", "in"] → Condition.parse (compile lookup) source = .ok (.operand e)) := by
  obtain ⟨-, hne, htrimmed, hsolid⟩ := compile_eq_ok h
  obtain ⟨operand, steps, ⟨rest, hsource, hoperand, hsteps⟩, -⟩ := exists_reads_of_compile h
  have hunbroken : Unbroken source.toList :=
    (hsource ▸ hoperand.continues hsteps.continues : Continues source.toList) hfree
  have htokens : ConditionToken.ofString source =
      .ok [⟨if source ∈ ["and", "or", "not", "in"] then .keyword else .operand, source, 0⟩,
        ⟨.ending, "", source.length⟩] := by
    rw [ConditionToken.ofString, hunbroken.scan (by simpa using hne), String.ofList_toList, Nat.zero_add,
      String.length_toList]
    simp only [isKeyword_iff]
  refine ⟨fun kind line => ?_, ?_, htokens, fun hword => ?_⟩
  · rw [Lexer.delimitedToken, htrimmed.trim_eq, String.ofList_toList]
  · have hbits : ∀ b ∈ [source], Solid b.toList ∧ b ≠ "" := by simpa using ⟨hsolid hfree, hne⟩
    simpa using ofString_intercalate hbits
  · rw [if_neg hword] at htokens
    rw [Condition.parse, htokens]
    have hspelled : ∀ t ∈ [(⟨.operand, source, 0⟩ : ConditionToken)], t.kind ≠ .ending ∧ t.Spelled := by
      simp [ConditionToken.Spelled]
    refine (Condition.Parse.whole_run_eq_ok_iff hspelled rfl).mpr ⟨.operand source, ?_, ?_⟩
    · exact ⟨.orFirst (.andFirst (.positive (.operand rfl))), Nat.zero_le _⟩
    · rw [Condition.Phrase.compiled, h]
      rfl

/-- A pipeline whose strings hold blanks, parentheses, the signs of operators, an escaped quote and a line break. -/
def crowdedSource : String := "a.b|default:\"x (y) == \\\"z\\\" and\"|cut:'\n\"'"

/-- It is a single token of a condition in spite of all that its strings hold. -/
theorem compile_lone_operand_crowded : ∃ e,
    compile ((Environment.standard .latest).filterLookup [0, 1]) crowdedSource = .ok e ∧
      BlankFree crowdedSource.toList ∧ Bits.ofString crowdedSource = [crowdedSource] ∧
      ConditionToken.ofString crowdedSource = .ok [⟨.operand, crowdedSource, 0⟩, ⟨.ending, "", crowdedSource.length⟩] ∧
      Condition.parse (compile ((Environment.standard .latest).filterLookup [0, 1])) crowdedSource =
        .ok (.operand e) := by
  have hok : (compile ((Environment.standard .latest).filterLookup [0, 1]) crowdedSource).isOk = true := by
    decide +kernel
  have hfree : BlankFree crowdedSource.toList := by decide +kernel
  cases he : compile ((Environment.standard .latest).filterLookup [0, 1]) crowdedSource with
  | error failure =>
    rw [he] at hok
    cases hok
  | ok e =>
    obtain ⟨-, hbits, htokens, hparse⟩ := compile_lone_operand he hfree
    exact ⟨e, rfl, hfree, hbits, htokens, hparse (by decide)⟩

end Pipeline

end TextTemplate
