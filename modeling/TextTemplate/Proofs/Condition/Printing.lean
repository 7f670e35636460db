import TextTemplate.Condition.Truth
import TextTemplate.Proofs.Condition.LoneOperand

/-!
# Conditions written back

The text of a condition is its tree written out, with parentheses only where the tree has a group. Reading the text
of a condition that was read gives the condition back: the tokens are those that the condition was read from, up to
blanks and offsets, and what is derived of tokens does not depend on these.

An operand is written in front of a blank, of a closing parenthesis or of the end of the text. It stops in front of
all three, so it is scanned to the token that it came from.
-/

namespace TextTemplate

namespace Text

variable {q : Char} {s string inside after : List Char}

/-- A string up to its closing quote is closed by itself. -/
theorem closing?_self (h : closing? q s = some (inside, after)) : closing? q inside = some (inside, []) := by
  have hne {c : Char} {rest : List Char} (h₁ : c = '\\' → rest = [] → False)
      (h₂ : ∀ d more, c = '\\' → rest = d :: more → False) : c ≠ '\\' := fun hc => by
    cases rest with
    | nil => exact h₁ hc rfl
    | cons d more => exact h₂ d more hc rfl
  fun_induction closing? q s generalizing inside after with
  | case1 | case2 | case3 => simp at h
  | case4 c rest hc ih =>
    simp only [Option.map_eq_some_iff, Prod.exists, Prod.mk.injEq] at h
    obtain ⟨a, b, hab, rfl, rfl⟩ := h
    simp [closing?, hc, ih hab]
  | case5 c rest h₁ h₂ hq =>
    obtain ⟨rfl, rfl⟩ : [c] = inside ∧ rest = after := by simpa using h
    rw [closing?_cons (hne h₁ h₂), if_pos hq]
  | case6 c rest h₁ h₂ hq ih =>
    simp only [Option.map_eq_some_iff, Prod.exists, Prod.mk.injEq] at h
    obtain ⟨a, b, hab, rfl, rfl⟩ := h
    rw [closing?_cons (hne h₁ h₂), if_neg hq, ih hab]
    rfl

theorem closedString?_self (h : closedString? s = some (string, after)) :
    closedString? string = some (string, []) := by
  cases s with
  | nil => simp [closedString?] at h
  | cons c rest =>
    simp only [closedString?] at h
    split_ifs at h with hq
    simp only [Option.map_eq_some_iff, Prod.exists, Prod.mk.injEq] at h
    obtain ⟨inside, b, hc, rfl, rfl⟩ := h
    simp [closedString?, hq, closing?_self hc]

end Text

namespace ConditionToken

open Text

/-! ## Operands in other surroundings -/

/-- A text that no operand runs on into: it is empty, or starts with a blank or a closing parenthesis. -/
def Stops (rest : List Char) : Prop := ∀ c ∈ rest.head?, isBlank c = true ∨ c = ')'

variable {c : Char} {s rest string after : List Char}

theorem stops_nil : Stops [] := nofun

theorem stops_blank (rest : List Char) : Stops (' ' :: rest) := by
  rintro c ⟨⟩
  exact .inl (by decide)

theorem stops_closer (rest : List Char) : Stops (')' :: rest) := by
  rintro c ⟨⟩
  exact .inr rfl

theorem takeOperand_cons (hc : isOperandChar c = true) (s : List Char) :
    takeOperand (c :: s) = (c :: (takeOperand s).1, (takeOperand s).2) := by
  rw [takeOperand.eq_def]
  simp only [if_pos hc]

theorem takeOperand_string (h : closedString? s = some (string, after)) :
    takeOperand s = (string ++ (takeOperand after).1, (takeOperand after).2) := by
  obtain ⟨q, more, rfl, hq⟩ := exists_quote_of_closedString? h
  rw [takeOperand.eq_def]
  simp only [isOperandChar_eq_false_of_isQuote hq, Bool.false_eq_true, if_false]
  split
  · rename_i hsome
    rw [h] at hsome
    cases hsome
    rfl
  · rename_i hnone
    rw [h] at hnone
    cases hnone

theorem Stops.takeOperand (h : Stops rest) : takeOperand rest = ([], rest) := by
  rw [takeOperand.eq_def]
  cases rest with
  | nil => rfl
  | cons c rest =>
    have hstop : isOperandChar c = false ∧ isQuote c = false := by
      rcases h c rfl with hblank | rfl
      · simp [isOperandChar, hblank, isQuote_eq_false_of_isBlank hblank]
      · decide
    dsimp only
    rw [if_neg (by simp [hstop.1])]
    split
    · rename_i hsome
      rw [closedString?_eq_none hstop.2] at hsome
      cases hsome
    · rfl

/-- An operand that has been taken is taken again wherever it stops. -/
theorem takeOperand_again (s : List Char) (hrest : Stops rest) :
    takeOperand ((takeOperand s).1 ++ rest) = ((takeOperand s).1, rest) := by
  fun_induction takeOperand s with
  | case1 => exact hrest.takeOperand
  | case2 c s hc ih => rw [List.cons_append, takeOperand_cons hc, ih]
  | case3 c s hc string after hclosed ih =>
    have hself := closedString?_extend (closedString?_self hclosed) ((takeOperand after).1 ++ rest)
    rw [List.append_assoc, takeOperand_string hself, List.nil_append, ih]
  | case4 => exact hrest.takeOperand

theorem Unbroken.takeOperand_append (h : Unbroken s) (hrest : Stops rest) :
    takeOperand (s ++ rest) = (s, rest) := by
  have hagain := takeOperand_again s hrest
  rwa [show takeOperand s = (s, []) from h] at hagain

/-! ## Texts that are scanned wherever they stop -/

theorem scan_blank (hc : isBlank c = true) (s : List Char) (offset : Nat) :
    scan (c :: s) offset = scan s (offset + 1) := by
  rw [scan.eq_def]
  exact if_pos hc

theorem scan_first {kind : Kind} {text : List Char} (hc : isBlank c = false)
    (h : first? c s = some (kind, text, after)) (offset : Nat) :
    scan (c :: s) offset =
      ([⟨kind, String.ofList text, offset⟩] ++ ·) <$> scan after (offset + text.length) := by
  rw [scan.eq_def]
  simp only [hc, Bool.false_eq_true, if_false]
  split
  · rename_i hnone
    rw [h] at hnone
    cases hnone
  · rename_i hsome
    rw [h] at hsome
    cases hsome
    cases scan after (offset + text.length) <;> rfl

/-- A text is scanned to tokens of a language wherever it stops, and the scan goes on behind it. -/
def Spells (s : List Char) (L : List ConditionToken → Prop) : Prop :=
  ∀ rest offset, Stops rest →
    ∃ ts, L ts ∧ scan (s ++ rest) offset = (ts ++ ·) <$> scan rest (offset + s.length)

namespace Spells

variable {s t : List Char} {L M : List ConditionToken → Prop}

theorem mono (h : Spells s L) (himp : ∀ ts, L ts → M ts) : Spells s M := by
  intro rest offset hrest
  obtain ⟨ts, hts, hscan⟩ := h rest offset hrest
  exact ⟨ts, himp ts hts, hscan⟩

/-- A blank between two texts keeps them apart. -/
theorem append_blank (h : Spells s L) (h' : Spells t M) :
    Spells (s ++ ' ' :: t) fun ts => ∃ us vs, ts = us ++ vs ∧ L us ∧ M vs := by
  intro rest offset hrest
  obtain ⟨us, hus, hscan⟩ := h (' ' :: (t ++ rest)) offset (stops_blank _)
  obtain ⟨vs, hvs, hscan'⟩ := h' rest (offset + s.length + 1) hrest
  refine ⟨us ++ vs, ⟨us, vs, rfl, hus, hvs⟩, ?_⟩
  have hlength : offset + (s ++ ' ' :: t).length = offset + s.length + 1 + t.length := by
    rw [List.length_append, List.length_cons]
    omega
  rw [List.append_assoc, List.cons_append, hscan, scan_blank (by decide), hscan', hlength]
  cases scan rest (offset + s.length + 1 + t.length) with
  | error e => rfl
  | ok later => exact congrArg Except.ok (List.append_assoc us vs later).symm

theorem parenthesized (h : Spells s L) : Spells ('(' :: s ++ [')']) fun ts =>
    ∃ o us k, ts = o :: us ++ [k] ∧ o.Is .symbol "(" ∧ L us ∧ k.Is .symbol ")" := by
  intro rest offset _
  obtain ⟨us, hus, hscan⟩ := h (')' :: rest) (offset + 1) (stops_closer rest)
  have hopener : first? '(' (s ++ ')' :: rest) = some (.symbol, ['('], s ++ ')' :: rest) := rfl
  have hcloser : first? ')' rest = some (.symbol, [')'], rest) := rfl
  refine ⟨⟨.symbol, "(", offset⟩ :: us ++ [⟨.symbol, ")", offset + 1 + s.length⟩],
    ⟨_, us, _, rfl, ⟨rfl, rfl⟩, hus, ⟨rfl, rfl⟩⟩, ?_⟩
  have hlength : offset + ('(' :: s ++ [')']).length = offset + 1 + s.length + [')'].length := by
    simp only [List.length_append, List.length_cons, List.length_nil]
    omega
  have htext : '(' :: s ++ [')'] ++ rest = '(' :: (s ++ ')' :: rest) := by simp
  rw [htext, scan_first (by decide) hopener, List.length_singleton, hscan, scan_first (by decide) hcloser, hlength]
  cases scan rest (offset + 1 + s.length + [')'].length) with
  | error e => rfl
  | ok later => exact congrArg Except.ok (by simp)

end Spells

/-- An unbroken text is a single token wherever it stops. -/
theorem Unbroken.spells (h : Unbroken s) (hne : s ≠ []) : Spells s fun ts => ∃ t, ts = [t] ∧
    t.Is (if isKeyword (String.ofList s) then .keyword else .operand) (String.ofList s) := by
  intro rest offset hrest
  obtain ⟨c, s, rfl⟩ := List.exists_cons_of_ne_nil hne
  obtain ⟨hblank, hfirst⟩ := first?_of_head h.head (h.takeOperand_append hrest) hne
  exact ⟨[⟨_, _, offset⟩], ⟨_, rfl, rfl, rfl⟩, scan_first hblank hfirst offset⟩

/-! ## Operands, keywords and operators -/

/-- What is read as one operand: an unbroken text that is no keyword. -/
def Lone (text : String) : Prop := Unbroken text.toList ∧ text ≠ "" ∧ isKeyword text = false

theorem Lone.spells {text : String} (h : Lone text) :
    Spells text.toList fun ts => ∃ t, ts = [t] ∧ t.Is .operand text := by
  obtain ⟨hunbroken, hne, hkeyword⟩ := h
  have hspells := hunbroken.spells (by simpa using hne)
  rwa [String.ofList_toList, hkeyword] at hspells

theorem spells_keyword (word : String) (h : isKeyword word = true) :
    Spells word.toList fun ts => ∃ t, ts = [t] ∧ t.Is .keyword word := by
  have hchars : ∀ c ∈ word.toList, isOperandChar c = true := by
    have hall : ∀ w ∈ ["and", "or", "not", "in"], w.toList.all isOperandChar = true := by decide
    exact List.all_eq_true.mp (hall word (isKeyword_iff.mp h))
  have hne : word.toList ≠ [] := by
    rintro hnil
    rw [String.toList_eq_nil_iff.mp hnil] at h
    cases h
  have hunbroken : Unbroken word.toList := by simpa using unbroken_nil.plain hchars
  have hspells := hunbroken.spells hne
  rwa [String.ofList_toList, h] at hspells

/-- Operands of a condition that was scanned are read as operands anywhere. -/
theorem first?_lone {text : List Char} (h : first? c s = some (.operand, text, after)) :
    Lone (String.ofList text) := by
  unfold first? at h
  split at h
  · cases h
  · split at h
    · cases h
    · split at h
      · cases h
      · rename_i operand rest hne htake
        have hself := takeOperand_again (c :: s) stops_nil
        rw [htake, List.append_nil] at hself
        split at h
        · cases h
        · rename_i hkeyword
          cases h
          exact ⟨by rwa [String.toList_ofList], fun hnil => hne (by simpa using congrArg String.toList hnil),
            by simpa using hkeyword⟩

theorem scan_lone {offset : Nat} {tokens : List ConditionToken} (h : scan s offset = .ok tokens) :
    ∀ t ∈ tokens, t.kind = .operand → Lone t.text := by
  fun_induction scan s offset generalizing tokens with
  | case1 offset =>
    cases h
    rintro t (_ | ⟨_, ⟨⟩⟩) ⟨⟩
  | case2 offset c rest _ ih => exact ih h
  | case3 => cases h
  | case4 offset c rest _ kind text after hfirst ih =>
    cases hafter : scan after (offset + text.length) with
    | error e =>
      rw [hafter] at h
      cases h
    | ok later =>
      rw [hafter] at h
      cases h
      rintro t (_ | ⟨_, ht⟩) hkind
      · obtain rfl : kind = .operand := hkind
        exact first?_lone hfirst
      · exact ih hafter t ht hkind

/-- A sign is not taken for a longer one where it stops. -/
theorem operator?_symbol {op : Comparison} (hin : op ≠ .isIn) (hnotIn : op ≠ .isNotIn) (hrest : Stops rest) :
    operator? (op.symbol.toList ++ rest) = some (op.symbol.toList, rest) := by
  have hlonger : ∀ more, rest ≠ '=' :: more := by
    rintro more rfl
    rcases hrest '=' rfl with h | h <;> exact absurd h (by decide)
  cases op with
  | equal | unequal | atMost | atLeast => rfl
  | less | greater =>
    cases rest with
    | nil => rfl
    | cons d more =>
      have hd : d ≠ '=' := fun hd => hlonger more (by rw [hd])
      simp [Comparison.symbol, operator?]
  | isIn => exact absurd rfl hin
  | isNotIn => exact absurd rfl hnotIn

theorem spells_sign {op : Comparison} (hin : op ≠ .isIn) (hnotIn : op ≠ .isNotIn) :
    Spells op.symbol.toList fun ts => ∃ t, ts = [t] ∧ t.Is .operator op.symbol := by
  intro rest offset hrest
  have hoperator := operator?_symbol hin hnotIn hrest
  obtain ⟨c, s, hsymbol, hblank, hparenthesis⟩ : ∃ c s, op.symbol.toList = c :: s ∧ isBlank c = false ∧
      (c == '(' || c == ')') = false := by
    cases op <;> exact ⟨_, _, rfl, by decide, by decide⟩
  have hfirst : first? c (s ++ rest) = some (.operator, op.symbol.toList, rest) := by
    rw [first?, hparenthesis, ← List.cons_append, ← hsymbol, hoperator]
    rfl
  refine ⟨[⟨.operator, op.symbol, offset⟩], ⟨_, rfl, rfl, rfl⟩, ?_⟩
  rw [hsymbol, List.cons_append, scan_first hblank hfirst, ← hsymbol, String.ofList_toList]

end ConditionToken

namespace Condition

open ConditionToken

namespace Grammar

theorem Operator.spells (op : Comparison) : Spells op.symbol.toList (Operator · op) := by
  by_cases hin : op = .isIn
  · subst hin
    refine (spells_keyword "in" rfl).mono ?_
    rintro _ ⟨t, rfl, ht⟩
    exact .isIn ht
  by_cases hnotIn : op = .isNotIn
  · subst hnotIn
    refine ((spells_keyword "not" rfl).append_blank (spells_keyword "in" rfl)).mono ?_
    rintro _ ⟨_, _, rfl, ⟨t, rfl, ht⟩, u, rfl, hu⟩
    exact .isNotIn ht hu
  refine (spells_sign hin hnotIn).mono ?_
  rintro _ ⟨t, rfl, hkind, htext⟩
  refine .symbol hkind ?_
  rw [htext]
  cases op <;> first | rfl | contradiction

end Grammar

/-! ## Phrases -/

namespace Phrase

/-- The operands, from left to right. -/
def operands : Phrase → List String
  | operand text => [text]
  | comparison left _ right => [left, right]
  | group inside => inside.operands
  | not inside => inside.operands
  | and left right => left.operands ++ right.operands
  | or left right => left.operands ++ right.operands

/-- The text of a phrase. -/
def shown : Phrase → String
  | operand text => text
  | comparison left operator right => left ++ " " ++ operator.symbol ++ " " ++ right
  | group inside => "(" ++ inside.shown ++ ")"
  | not inside => "not " ++ inside.shown
  | and left right => left.shown ++ " and " ++ right.shown
  | or left right => left.shown ++ " or " ++ right.shown

end Phrase

theorem shown_phrase (c : Condition) : c.phrase.shown = c.shown := by
  induction c with
  | operand | comparison => rfl
  | group inside ih | not inside ih => rw [phrase, Phrase.shown, ih, shown]
  | and left right ih ih' | or left right ih ih' => rw [phrase, Phrase.shown, ih, ih', shown]

/-- Operands are compiled to expressions that are written as they were. -/
def OperandCompiler.KeepsSource (compile : OperandCompiler) : Prop :=
  ∀ text e, compile text = .ok e → e.source = text

/-- A condition was compiled from the phrase that it is put together as. -/
theorem Phrase.phrase_of_compiled {compile : OperandCompiler} (hcompile : compile.KeepsSource) {p : Phrase}
    {c : Condition} (h : p.compiled compile = .ok c) : c.phrase = p := by
  induction p generalizing c with
  | operand text =>
    obtain ⟨e, he, h⟩ := bind_eq_ok_iff.mp h
    cases h
    rw [phrase, hcompile text e he]
  | comparison left op right =>
    obtain ⟨e, he, h⟩ := bind_eq_ok_iff.mp h
    obtain ⟨e', he', h⟩ := bind_eq_ok_iff.mp h
    cases h
    rw [phrase, hcompile left e he, hcompile right e' he']
  | group inside ih | not inside ih =>
    obtain ⟨c, hc, h⟩ := bind_eq_ok_iff.mp h
    cases h
    rw [phrase, ih hc]
  | and left right ih ih' | or left right ih ih' =>
    obtain ⟨c, hc, h⟩ := bind_eq_ok_iff.mp h
    obtain ⟨c', hc', h⟩ := bind_eq_ok_iff.mp h
    cases h
    rw [phrase, ih hc, ih' hc']

namespace Grammar

variable {n : Nonterminal} {ts : List ConditionToken} {p : Phrase}

/-- The operands of a phrase stand among its tokens. -/
theorem Derives.exists_token (h : Derives n ts p) :
    ∀ text ∈ p.operands, ∃ t ∈ ts, t.kind = .operand ∧ t.text = text := by
  induction h with
  | orFirst _ ih | andFirst _ ih | positive _ ih => exact ih
  | orNext _ _ _ ih ih' | andNext _ _ _ ih ih' =>
    intro text htext
    rcases List.mem_append.mp htext with hleft | hright
    · obtain ⟨t, ht, htoken⟩ := ih text hleft
      exact ⟨t, List.mem_append_left _ ht, htoken⟩
    · obtain ⟨t, ht, htoken⟩ := ih' text hright
      exact ⟨t, List.mem_append_right _ (List.mem_cons_of_mem _ ht), htoken⟩
  | not _ _ ih =>
    intro text htext
    obtain ⟨t, ht, htoken⟩ := ih text htext
    exact ⟨t, List.mem_cons_of_mem _ ht, htoken⟩
  | @compared l r os op left _ right =>
    rintro text (_ | ⟨_, _ | ⟨_, ⟨⟩⟩⟩)
    · exact ⟨l, by simp, left, rfl⟩
    · exact ⟨r, by simp, right, rfl⟩
  | @operand t kind =>
    rintro text (_ | ⟨_, ⟨⟩⟩)
    exact ⟨t, by simp, kind, rfl⟩
  | group _ _ _ ih =>
    intro text htext
    obtain ⟨t, ht, htoken⟩ := ih text htext
    exact ⟨t, by simp [ht], htoken⟩

/-- What is derived of some tokens is derived of those that its text is scanned to. -/
theorem Derives.spells (h : Derives n ts p) (hlone : ∀ text ∈ p.operands, Lone text) :
    Spells p.shown.toList (Derives n · p) := by
  induction h with
  | orFirst _ ih => exact (ih hlone).mono fun _ => .orFirst
  | andFirst _ ih => exact (ih hlone).mono fun _ => .andFirst
  | positive _ ih => exact (ih hlone).mono fun _ => .positive
  | @orNext ts us k p q _ _ _ ih ih' =>
    obtain ⟨hp, hq⟩ := List.forall_mem_append.mp hlone
    have hword := spells_keyword "or" rfl
    have htext : (Phrase.or p q).shown.toList =
        p.shown.toList ++ ' ' :: ("or".toList ++ ' ' :: q.shown.toList) := by
      simp [Phrase.shown]
    rw [htext]
    refine ((ih hp).append_blank (hword.append_blank (ih' hq))).mono ?_
    rintro _ ⟨us, _, rfl, hus, _, vs, rfl, ⟨t, rfl, ht⟩, hvs⟩
    exact .orNext hus ht hvs
  | @andNext ts us k p q _ _ _ ih ih' =>
    obtain ⟨hp, hq⟩ := List.forall_mem_append.mp hlone
    have hword := spells_keyword "and" rfl
    have htext : (Phrase.and p q).shown.toList =
        p.shown.toList ++ ' ' :: ("and".toList ++ ' ' :: q.shown.toList) := by
      simp [Phrase.shown]
    rw [htext]
    refine ((ih hp).append_blank (hword.append_blank (ih' hq))).mono ?_
    rintro _ ⟨us, _, rfl, hus, _, vs, rfl, ⟨t, rfl, ht⟩, hvs⟩
    exact .andNext hus ht hvs
  | @not ts k p _ _ ih =>
    have htext : (Phrase.not p).shown.toList = "not".toList ++ ' ' :: p.shown.toList := by simp [Phrase.shown]
    rw [htext]
    refine ((spells_keyword "not" rfl).append_blank (ih hlone)).mono ?_
    rintro _ ⟨_, vs, rfl, ⟨t, rfl, ht⟩, hvs⟩
    exact .not ht hvs
  | @compared l r os op _ _ _ =>
    obtain ⟨hl, hr⟩ : Lone l.text ∧ Lone r.text := by simpa [Phrase.operands] using hlone
    have htext : (Phrase.comparison l.text op r.text).shown.toList =
        l.text.toList ++ ' ' :: (op.symbol.toList ++ ' ' :: r.text.toList) := by
      simp [Phrase.shown]
    rw [htext]
    refine (hl.spells.append_blank ((Operator.spells op).append_blank hr.spells)).mono ?_
    rintro _ ⟨_, _, rfl, ⟨t, rfl, htkind, httext⟩, os, _, rfl, hos, u, rfl, hukind, hutext⟩
    rw [← httext, ← hutext]
    exact .compared htkind hos hukind
  | @operand t _ =>
    have ht : Lone t.text := by simpa [Phrase.operands] using hlone
    refine ht.spells.mono ?_
    rintro _ ⟨u, rfl, hkind, htext⟩
    rw [← htext]
    exact .operand hkind
  | @group o k ts p _ _ _ ih =>
    have htext : (Phrase.group p).shown.toList = '(' :: p.shown.toList ++ [')'] := by simp [Phrase.shown]
    rw [htext]
    refine (ih hlone).parenthesized.mono ?_
    rintro _ ⟨o, us, k, rfl, ho, hus, hk⟩
    exact .group ho hus hk

end Grammar

/-! ## Conditions -/

variable {compile : OperandCompiler} {text : String} {c : Condition}

theorem parse_eq_ok_iff : parse compile text = .ok c ↔
    ∃ ts p, ConditionToken.ofString text = .ok (ts ++ [⟨.ending, "", text.length⟩]) ∧
      Grammar.Within maxDepth .orExpr ts p ∧ p.compiled compile = .ok c := by
  cases hlex : ConditionToken.ofString text with
  | error e =>
    rw [parse, hlex]
    exact ⟨by rintro ⟨⟩, by rintro ⟨_, _, ⟨⟩, _⟩⟩
  | ok tokens =>
    obtain ⟨ts, rfl, hts⟩ := ConditionToken.scan_ending hlex
    rw [parse, hlex, Nat.zero_add, String.length_toList]
    refine (Parse.whole_run_eq_ok_iff hts rfl).trans ⟨?_, ?_⟩
    · rintro ⟨p, hp⟩
      exact ⟨ts, p, rfl, hp⟩
    · rintro ⟨us, p, htokens, hp⟩
      obtain rfl := List.append_cancel_right (Except.ok.inj htokens)
      exact ⟨p, hp⟩

/-- A phrase of operands that are read as such is read from its text. -/
theorem parse_shown_of_derives {ts : List ConditionToken} {p : Phrase} (hderives : Grammar.Derives .orExpr ts p)
    (hlone : ∀ text ∈ p.operands, Lone text) (hnesting : p.nesting ≤ maxDepth)
    (hcompiled : p.compiled compile = .ok c) : parse compile p.shown = .ok c := by
  obtain ⟨us, hus, hscan⟩ := hderives.spells hlone [] 0 stops_nil
  refine parse_eq_ok_iff.mpr ⟨us, p, ?_, ⟨hus, hnesting⟩, hcompiled⟩
  rw [List.append_nil] at hscan
  rw [ConditionToken.ofString, hscan, ConditionToken.scan.eq_def, Nat.zero_add, String.length_toList]
  rfl

/-- The tree of a condition that was read is derived of operands that are read as such. -/
theorem exists_derives_phrase (hcompile : compile.KeepsSource) (h : parse compile text = .ok c) :
    ∃ ts, Grammar.Derives .orExpr ts c.phrase ∧ (∀ text ∈ c.phrase.operands, Lone text) ∧
      c.phrase.nesting ≤ maxDepth ∧ c.phrase.compiled compile = .ok c := by
  obtain ⟨ts, p, hlex, ⟨hderives, hnesting⟩, hcompiled⟩ := parse_eq_ok_iff.mp h
  obtain rfl := Phrase.phrase_of_compiled hcompile hcompiled
  refine ⟨ts, hderives, fun text htext => ?_, hnesting, hcompiled⟩
  obtain ⟨t, ht, hkind, rfl⟩ := hderives.exists_token text htext
  exact ConditionToken.scan_lone hlex t (List.mem_append_left _ ht) hkind

/-- A condition that was read is read again from the text that is written back. -/
theorem parse_shown_again (hcompile : compile.KeepsSource) (h : parse compile text = .ok c) :
    parse compile c.shown = .ok c := by
  obtain ⟨ts, hderives, hlone, hnesting, hcompiled⟩ := exists_derives_phrase hcompile h
  rw [← shown_phrase]
  exact parse_shown_of_derives hderives hlone hnesting hcompiled

/-- The text of a condition that was read is accepted and gives the condition back. So conditions that are written
alike are the same, and true for the same data. -/
theorem parse_shown (hcompile : compile.KeepsSource) (h : parse compile text = .ok c) :
    parse compile c.shown = .ok c ∧ ∀ text' c', parse compile text' = .ok c' → c'.shown = c.shown →
      c' = c ∧ ∀ s, c'.eval s = c.eval s := by
  have hagain := parse_shown_again hcompile h
  refine ⟨hagain, fun text' c' h' hshown => ?_⟩
  have hagain' := parse_shown_again hcompile h'
  rw [hshown, hagain] at hagain'
  cases hagain'
  exact ⟨rfl, fun _ => rfl⟩

theorem keepsSource_compile (lookup : FilterLookup) : OperandCompiler.KeepsSource (Pipeline.compile lookup) :=
  fun _ _ h => (Pipeline.compile_eq_ok h).1

/-- Two texts with the same tokens, one without a blank that it can do without and one with many, are written back
alike. -/
theorem parse_shown_cramped :
    let compile := Pipeline.compile ((Environment.standard .latest).filterLookup [0, 1])
    let written := "not (a or not b) and c not in d|default:\"x  (y\" or e <= 'z'"
    ∃ c c', parse compile "not(a or not b)and c not in d|default:\"x  (y\" or e<='z'" = .ok c ∧
      parse compile "not  ( a\tor not b ) and c not\nin d|default:\"x  (y\" or e <= 'z' " = .ok c' ∧
      c'.shown = c.shown ∧ c.shown = written ∧ parse compile written = .ok c ∧ c' = c := by
  intro compile written
  have hread (text : String) (h : ((parse compile text).map shown).toOption = some written) :
      ∃ c, parse compile text = .ok c ∧ c.shown = written := by
    cases hc : parse compile text with
    | error e =>
      rw [hc] at h
      cases h
    | ok c =>
      rw [hc] at h
      exact ⟨c, rfl, Option.some.inj h⟩
  obtain ⟨c, hc, hshown⟩ := hread "not(a or not b)and c not in d|default:\"x  (y\" or e<='z'" (by decide +kernel)
  obtain ⟨c', hc', hshown'⟩ :=
    hread "not  ( a\tor not b ) and c not\nin d|default:\"x  (y\" or e <= 'z' " (by decide +kernel)
  obtain ⟨hagain, halike⟩ := parse_shown (keepsSource_compile _) hc
  rw [hshown] at hagain
  exact ⟨c, c', hc, hc', hshown'.trans hshown.symm, hshown, hagain, (halike _ c' hc' (hshown'.trans hshown.symm)).1⟩

end Condition

end TextTemplate
