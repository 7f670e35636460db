import TextTemplate.Proofs.Text.Strings
import TextTemplate.Proofs.Condition.Printing

/-!
# How a condition is scanned

The scanner loses nothing: its tokens are slices of the text at their offsets, in order, and only blanks are left
between them and around them. Each token is the longest that starts where it does. The scanner comes to the end of
every text, or to a character that starts no token.
-/

namespace TextTemplate.ConditionToken

open Text

/-! ## What tokens are -/

/-- How operators are written that are no words. -/
def signs : List (List Char) := [['=', '='], ['!', '='], ['<', '='], ['>', '='], ['<'], ['>']]

/-- The words that are keywords. -/
def words : List String := ["and", "or", "not", "in"]

/-- How tokens of each kind are written. -/
inductive Form : Kind → List Char → Prop
  | symbol {c} (parenthesis : c = '(' ∨ c = ')') : Form .symbol [c]
  | operator {sign} (known : sign ∈ signs) : Form .operator sign
  | keyword {run} (word : String.ofList run ∈ words) : Form .keyword run
  | operand {run} (nonempty : run ≠ []) (made : MadeOf isOperandChar run)
      (other : String.ofList run ∉ words) : Form .operand run

/-- A token in front of the rest of a text: nothing that is longer is a token, and a word or operand goes on for as
long as characters of operands or complete strings follow. -/
structure Taken (kind : Kind) (token rest : List Char) : Prop where
  form : Form kind token
  longest : ∀ kind' longer, Form kind' longer → longer <+: token ++ rest → longer.length ≤ token.length
  ends : kind = .keyword ∨ kind = .operand → Ends isOperandChar rest

/-- A character that no token starts with: half an operator, or the quote of a string that is not closed. -/
def Stray (c : Char) (rest : List Char) : Prop :=
  (c = '=' ∨ c = '!') ∧ rest.head? ≠ some '=' ∨
    isQuote c = true ∧ ∀ string after, c :: rest = string ++ after → ¬IsString string

/-- The offset behind a token. -/
def stop (t : ConditionToken) : Nat := t.offset + t.text.length

/-- Tokens as they stand in a text between two offsets, one behind the other, with nothing but blanks around them. -/
structure Cuts (text : List Char) (start stop : Nat) (tokens : List ConditionToken) : Prop where
  le : start ≤ stop
  taken : ∀ t ∈ tokens, ∃ rest, text.drop t.offset = t.text.toList ++ rest ∧ Taken t.kind t.text.toList rest
  inside : ∀ t ∈ tokens, start ≤ t.offset ∧ t.stop ≤ stop
  apart : tokens.Pairwise fun t u => t.stop ≤ u.offset
  blank : ∀ i c, start ≤ i → i < stop → text[i]? = some c → (∀ t ∈ tokens, i < t.offset ∨ t.stop ≤ i) →
    isBlank c = true

/-- What scanning a text from an offset on comes to: tokens up to the end of the text and the mark of the end, or
tokens up to a character that starts none. -/
def Scanned (text : List Char) (start : Nat) : Except (Char × Nat) (List ConditionToken) → Prop
  | .ok tokens => ∃ ts, tokens = ts ++ [⟨.ending, "", text.length⟩] ∧ Cuts text start text.length ts
  | .error (c, offset) => ∃ ts rest, Cuts text start offset ts ∧ text.drop offset = c :: rest ∧ Stray c rest ∧
      ∀ kind token, Form kind token → ¬token <+: c :: rest

variable {c : Char} {s text rest token after sign : List Char} {kind : Kind}

/-! ## The first token -/

theorem takeOperand_spec (s : List Char) :
    MadeOf isOperandChar (takeOperand s).1 ∧ Ends isOperandChar (takeOperand s).2 := by
  fun_induction takeOperand s with
  | case1 => exact ⟨.nil, by simp, fun string after h => by simp_all [IsString]⟩
  | case2 c rest hc ih => exact ⟨.char hc ih.1, ih.2⟩
  | case3 c rest hc string after hclosed ih =>
    exact ⟨.string (closedString?_eq_some_iff.mp hclosed).1 ih.1, ih.2⟩
  | case4 c rest hc hclosed => exact ⟨.nil, by simpa using hc, closedString?_eq_none_iff.mp hclosed⟩

theorem operator?_spec (h : operator? s = some (sign, after)) :
    sign ∈ signs ∧ ∀ longer ∈ signs, longer <+: s → longer.length ≤ sign.length := by
  unfold operator? at h
  split at h <;> cases h <;> simp_all [signs, List.IsPrefix, eq_comm]

theorem operator?_head (h : operator? (c :: rest) = some (sign, after)) : c = '=' ∨ c = '!' ∨ c = '<' ∨ c = '>' := by
  unfold operator? at h
  split at h <;> simp_all

theorem operator?_eq_none (h : operator? s = none) : ∀ sign ∈ signs, ¬sign <+: s := by
  unfold operator? at h
  split at h <;> simp_all [signs, List.IsPrefix, eq_comm]

/-- A sign that is no operator is half of one. -/
theorem half_of_operator?_eq_none (h : operator? (c :: rest) = none) (hc : c = '=' ∨ c = '!' ∨ c = '<' ∨ c = '>') :
    (c = '=' ∨ c = '!') ∧ rest.head? ≠ some '=' := by
  have hwhole {d : Char} (hd : [d, '='] ∈ signs) : c = d → rest.head? ≠ some '=' := by
    rintro rfl hhead
    obtain ⟨more, rfl⟩ := List.head?_eq_some_iff.mp hhead
    exact operator?_eq_none h _ hd (List.prefix_append [c, '='] more)
  have hsingle {d : Char} (hd : [d] ∈ signs) : c ≠ d := by
    rintro rfl
    exact operator?_eq_none h _ hd (List.prefix_append [c] rest)
  rcases hc with hc | hc | hc | hc
  · exact ⟨.inl hc, hwhole (by decide) hc⟩
  · exact ⟨.inr hc, hwhole (by decide) hc⟩
  · exact absurd hc (hsingle (by decide))
  · exact absurd hc (hsingle (by decide))

theorem madeOf_of_word {run : List Char} (h : String.ofList run ∈ words) :
    run ≠ [] ∧ MadeOf isOperandChar run := by
  have hword : ∀ word ∈ words, word.toList ≠ [] ∧ word.toList.all isOperandChar = true := by decide
  have hrun := hword _ h
  rw [String.toList_ofList, List.all_eq_true] at hrun
  exact ⟨hrun.1, .of_forall hrun.2⟩

theorem Form.ne_nil (h : Form kind token) : token ≠ [] := by
  cases h with
  | symbol => exact List.cons_ne_nil _ _
  | operator known =>
    rintro rfl
    revert known
    decide
  | keyword word => exact (madeOf_of_word word).1
  | operand nonempty => exact nonempty

/-- Nothing that is written like a token starts a text, but a parenthesis, an operator or no more than the operand that
is taken there. -/
theorem Form.at_start (h : Form kind token) (hstart : token <+: s) : (∃ c, token = [c] ∧ (c = '(' ∨ c = ')')) ∨
    token ∈ signs ∨ token ≠ [] ∧ token.length ≤ (takeOperand s).1.length := by
  have hrun (hmade : MadeOf isOperandChar token) : token.length ≤ (takeOperand s).1.length := by
    obtain ⟨after, hafter⟩ := hstart
    obtain ⟨htaken, hends⟩ := takeOperand_spec s
    exact htaken.length_le (fun _ => isOperandChar_eq_false_of_isQuote) hends hmade
      (hafter.trans (takeOperand_append s).symm)
  cases h with
  | symbol parenthesis => exact .inl ⟨_, rfl, parenthesis⟩
  | operator known => exact .inr (.inl known)
  | keyword word => exact .inr (.inr ⟨(madeOf_of_word word).1, hrun (madeOf_of_word word).2⟩)
  | operand nonempty made other => exact .inr (.inr ⟨nonempty, hrun made⟩)

/-- No operand starts with a character that is none of operands and no quote. -/
theorem takeOperand_special (hchar : isOperandChar c = false) (hquote : isQuote c = false) (rest : List Char) :
    (takeOperand (c :: rest)).1 = [] := by
  rw [takeOperand.eq_def]
  dsimp only
  rw [if_neg (by simp [hchar])]
  split
  · rename_i hsome
    rw [closedString?_eq_none hquote] at hsome
    cases hsome
  · rfl

/-- A token is the longest if it is as long as any operator and any operand that could be taken in its place. -/
theorem Taken.of_lengths (hform : Form kind token) (htext : token ++ after = s)
    (hsign : ∀ sign ∈ signs, sign <+: s → sign.length ≤ token.length)
    (hrun : (takeOperand s).1.length ≤ token.length)
    (hends : kind = .keyword ∨ kind = .operand → Ends isOperandChar after) : Taken kind token after := by
  refine ⟨hform, fun kind' longer hlonger hstart => ?_, hends⟩
  rw [htext] at hstart
  rcases hlonger.at_start hstart with ⟨d, rfl, -⟩ | hknown | ⟨-, hlength⟩
  · exact List.length_pos_iff.mpr hform.ne_nil
  · exact hsign longer hknown hstart
  · exact hlength.trans hrun

theorem takeOperand_eq_nil (h : (takeOperand (c :: rest)).1 = []) :
    isOperandChar c = false ∧ closedString? (c :: rest) = none := by
  rw [takeOperand.eq_def] at h
  dsimp only at h
  split_ifs at h with hc
  refine ⟨by simpa using hc, ?_⟩
  split at h
  · rename_i hclosed
    exact absurd (List.append_eq_nil_iff.mp h).1 (closedString?_append hclosed).2
  · assumption

/-- What is taken from the start of a text is a token, and the longest there. -/
theorem first?_spec (h : first? c rest = some (kind, token, after)) : Taken kind token after := by
  have htext := (first?_append h).1
  rw [first?] at h
  split_ifs at h with hparenthesis
  · cases h
    have hc : c = '(' ∨ c = ')' := by simpa using hparenthesis
    have hspecial : operator? (c :: rest) = none ∧ (takeOperand (c :: rest)).1 = [] := by
      rcases hc with rfl | rfl <;> exact ⟨rfl, takeOperand_special (by decide) (by decide) rest⟩
    refine .of_lengths (.symbol hc) htext (fun sign hsign hstart => ?_) (by simp [hspecial.2]) (by simp)
    exact absurd hstart (operator?_eq_none hspecial.1 sign hsign)
  · cases hoperator : operator? (c :: rest) with
    | some found =>
      rw [hoperator] at h
      cases h
      obtain ⟨hknown, hlongest⟩ := operator?_spec hoperator
      have hspecial : (takeOperand (c :: rest)).1 = [] := by
        rcases operator?_head hoperator with rfl | rfl | rfl | rfl <;>
          exact takeOperand_special (by decide) (by decide) rest
      exact .of_lengths (.operator hknown) htext hlongest (by simp [hspecial]) (by simp)
    | none =>
      obtain ⟨hmade, hends⟩ := takeOperand_spec (c :: rest)
      rw [hoperator] at h
      dsimp only at h
      split at h
      · cases h
      · rename_i run rest' hne htake
        rw [htake] at hmade hends
        cases h
        have hform : Form (if isKeyword (String.ofList token) then .keyword else .operand) token := by
          split_ifs with hkeyword
          · exact .keyword (isKeyword_iff.mp hkeyword)
          · exact .operand hne hmade fun hword => hkeyword (isKeyword_iff.mpr hword)
        refine .of_lengths hform htext (fun sign hsign hstart => ?_) (by rw [htake]) (fun _ => hends)
        exact absurd hstart (operator?_eq_none hoperator sign hsign)

/-- A character at which nothing is taken is a stray one, and no token starts there. -/
theorem first?_eq_none (hblank : isBlank c = false) (h : first? c rest = none) :
    Stray c rest ∧ ∀ kind token, Form kind token → ¬token <+: c :: rest := by
  rw [first?] at h
  split_ifs at h with hparenthesis
  cases hoperator : operator? (c :: rest) with
  | some found =>
    rw [hoperator] at h
    cases h
  | none =>
    have hnone : (takeOperand (c :: rest)).1 = [] := by
      rw [hoperator] at h
      dsimp only at h
      split at h
      · rename_i htake
        rw [htake]
      · cases h
    obtain ⟨hchar, hclosed⟩ := takeOperand_eq_nil hnone
    constructor
    · cases hquote : isQuote c with
      | true => exact .inr ⟨hquote, closedString?_eq_none_iff.mp hclosed⟩
      | false =>
        have hsign : c = '=' ∨ c = '!' ∨ c = '<' ∨ c = '>' := by
          simp only [isOperandChar, hblank, hquote, Bool.not_false, Bool.true_and, Bool.and_eq_false_iff,
            bne_eq_false_iff_eq] at hchar
          simp only [Bool.or_eq_true, beq_iff_eq] at hparenthesis
          tauto
        exact .inl (half_of_operator?_eq_none hoperator hsign)
    · intro kind token hform hstart
      rcases hform.at_start hstart with ⟨d, rfl, hd⟩ | hsign | ⟨hne, hlength⟩
      · obtain rfl : d = c := by simpa using hstart
        simp [hd] at hparenthesis
      · exact operator?_eq_none hoperator token hsign hstart
      · rw [hnone] at hlength
        exact hne (List.length_eq_zero_iff.mp (Nat.le_zero.mp hlength))

/-! ## The whole text -/

variable {start finish : Nat} {t : ConditionToken} {ts : List ConditionToken}

namespace Cuts

theorem none (text : List Char) (start : Nat) : Cuts text start start [] where
  le := le_rfl
  taken := nofun
  inside := nofun
  apart := .nil
  blank _ _ hstart hstop := absurd hstop (Nat.not_lt.mpr hstart)

/-- A blank in front is left out. -/
theorem behind_blank (h : Cuts text (start + 1) finish ts) (hc : text[start]? = some c) (hblank : isBlank c = true) :
    Cuts text start finish ts where
  le := Nat.le_of_succ_le h.le
  taken := h.taken
  inside t ht := ⟨Nat.le_of_succ_le (h.inside t ht).1, (h.inside t ht).2⟩
  apart := h.apart
  blank i d hstart hstop hd houtside := by
    obtain rfl | hlater := hstart.eq_or_lt
    · rw [hc] at hd
      cases hd
      exact hblank
    · exact h.blank i d hlater hstop hd houtside

/-- A token in front comes first. -/
theorem cons (htext : text.drop t.offset = t.text.toList ++ rest) (ht : Taken t.kind t.text.toList rest)
    (h : Cuts text t.stop finish ts) : Cuts text t.offset finish (t :: ts) where
  le := (Nat.le_add_right _ _).trans h.le
  taken := List.forall_mem_cons.mpr ⟨⟨rest, htext, ht⟩, h.taken⟩
  inside := List.forall_mem_cons.mpr ⟨⟨le_rfl, h.le⟩, fun u hu =>
    ⟨(Nat.le_add_right _ _).trans (h.inside u hu).1, (h.inside u hu).2⟩⟩
  apart := List.pairwise_cons.mpr ⟨fun u hu => (h.inside u hu).1, h.apart⟩
  blank i d hstart hstop hd houtside := by
    obtain ⟨hfirst, hlater⟩ := List.forall_mem_cons.mp houtside
    exact h.blank i d (hfirst.resolve_left (Nat.not_lt.mpr hstart)) hstop hd hlater

end Cuts

namespace Scanned

variable {result : Except (Char × Nat) (List ConditionToken)}

theorem behind_blank (h : Scanned text (start + 1) result) (hc : text[start]? = some c) (hblank : isBlank c = true) :
    Scanned text start result := by
  cases result with
  | ok tokens =>
    obtain ⟨ts, rfl, hcuts⟩ := h
    exact ⟨ts, rfl, hcuts.behind_blank hc hblank⟩
  | error stray =>
    obtain ⟨ts, rest, hcuts, hstray⟩ := h
    exact ⟨ts, rest, hcuts.behind_blank hc hblank, hstray⟩

theorem cons (htext : text.drop t.offset = t.text.toList ++ rest) (ht : Taken t.kind t.text.toList rest)
    (h : Scanned text t.stop result) : Scanned text t.offset ((t :: ·) <$> result) := by
  cases result with
  | ok tokens =>
    obtain ⟨ts, rfl, hcuts⟩ := h
    exact ⟨t :: ts, rfl, hcuts.cons htext ht⟩
  | error stray =>
    obtain ⟨ts, rest', hcuts, hstray⟩ := h
    exact ⟨t :: ts, rest', hcuts.cons htext ht, hstray⟩

end Scanned

/-- Scanning goes over what is behind a part of a text that it leaves alone. -/
theorem scan_scanned (s : List Char) (offset : Nat) (h : text.drop offset = s) (hle : offset ≤ text.length) :
    Scanned text offset (scan s offset) := by
  fun_induction scan s offset with
  | case1 offset =>
    obtain rfl : offset = text.length := hle.antisymm (List.drop_eq_nil_iff.mp h)
    exact ⟨[], rfl, .none text _⟩
  | case2 offset c rest hblank ih =>
    have hc : text[offset]? = some c := by rw [← List.head?_drop, h, List.head?_cons]
    have hrest : text.drop (offset + 1) = rest := by rw [← List.drop_drop, h, List.drop_one, List.tail_cons]
    exact (ih hrest (List.getElem?_eq_some_iff.mp hc).1).behind_blank hc hblank
  | case3 offset c rest hblank hnone =>
    have hc : isBlank c = false := by simpa using hblank
    exact ⟨[], rest, .none text _, h, first?_eq_none hc hnone⟩
  | case4 offset c rest hblank kind token after hfirst ih =>
    obtain ⟨htext, -⟩ := first?_append hfirst
    have hafter : text.drop (offset + token.length) = after := by
      rw [← List.drop_drop, h, ← htext, List.drop_left]
    have hle' : offset + token.length ≤ text.length := by
      have hlength := congrArg List.length (h.trans htext.symm)
      rw [List.length_drop, List.length_append] at hlength
      omega
    have htaken : Taken kind (String.ofList token).toList after := by
      rw [String.toList_ofList]
      exact first?_spec hfirst
    have hdrop : text.drop offset = (String.ofList token).toList ++ after := by
      rw [String.toList_ofList, h, htext]
    have hstop : stop ⟨kind, String.ofList token, offset⟩ = offset + token.length := by
      rw [stop, String.length_ofList]
    have hcons := Scanned.cons (t := ⟨kind, String.ofList token, offset⟩) hdrop htaken (hstop ▸ ih hafter hle')
    rwa [map_eq_pure_bind, hstop] at hcons

theorem ofString_scanned (text : String) : Scanned text.toList 0 (ofString text) :=
  scan_scanned text.toList 0 List.drop_zero (Nat.zero_le _)

variable {condition : String} {tokens : List ConditionToken}

/-- The offsets of the tokens of a condition rise. -/
theorem offsets_rise (h : ofString condition = .ok tokens) : tokens.Pairwise fun t u => t.offset < u.offset := by
  have hscanned := ofString_scanned condition
  rw [h] at hscanned
  obtain ⟨ts, rfl, hcuts⟩ := hscanned
  have hlt : ∀ t ∈ ts, t.offset < t.stop := by
    intro t ht
    obtain ⟨rest, -, htaken⟩ := hcuts.taken t ht
    have hlength := List.length_pos_iff.mpr htaken.form.ne_nil
    rw [String.length_toList] at hlength
    exact Nat.lt_add_of_pos_right hlength
  refine List.pairwise_append.mpr ⟨?_, List.pairwise_singleton _ _, fun t ht u hu => ?_⟩
  · exact hcuts.apart.imp_of_mem fun ht _ hle => (hlt _ ht).trans_le hle
  · rw [List.mem_singleton.mp hu]
    exact (hlt t ht).trans_le (hcuts.inside t ht).2

/-- Every token is the slice of the text at its offset, and the mark of the end is at the end. -/
theorem slice_at_offset (h : ofString condition = .ok tokens) : ∀ t ∈ tokens,
    (∃ rest, condition.toList.drop t.offset = t.text.toList ++ rest) ∧
      (t.kind = .ending → t.offset = condition.length) := by
  have hscanned := ofString_scanned condition
  rw [h] at hscanned
  obtain ⟨ts, rfl, hcuts⟩ := hscanned
  intro t ht
  rcases List.mem_append.mp ht with ht | ht
  · obtain ⟨rest, hdrop, htaken⟩ := hcuts.taken t ht
    refine ⟨⟨rest, hdrop⟩, fun hending => ?_⟩
    have hform := htaken.form
    rw [hending] at hform
    cases hform
  · rw [List.mem_singleton.mp ht]
    exact ⟨⟨[], by simp⟩, fun _ => String.length_toList⟩

/-- Scanning a condition comes to its end and loses nothing. Either the tokens are slices of the text at their offsets,
each the longest there, one behind the other with nothing but blanks between them and around them, and the mark of the
end is behind them at the length of the text. Or they are so up to a character that starts no token, and this character
is reported at its offset: an equals sign or exclamation mark without an equals sign behind it, or a quote that opens no
complete string. -/
theorem ofString_lossless (text : String) :
    (∃ ts, ofString text = .ok (ts ++ [⟨.ending, "", text.length⟩]) ∧ Cuts text.toList 0 text.length ts) ∨
    ∃ ts c offset rest, ofString text = .error (c, offset) ∧ Cuts text.toList 0 offset ts ∧
      text.toList.drop offset = c :: rest ∧ Stray c rest ∧ ∀ kind token, Form kind token → ¬token <+: c :: rest := by
  have hscanned := ofString_scanned text
  cases hresult : ofString text with
  | ok tokens =>
    rw [hresult] at hscanned
    obtain ⟨ts, rfl, hcuts⟩ := hscanned
    rw [String.length_toList] at hcuts ⊢
    exact .inl ⟨ts, rfl, hcuts⟩
  | error stray =>
    rw [hresult] at hscanned
    obtain ⟨ts, rest, hstray⟩ := hscanned
    exact .inr ⟨ts, stray.1, stray.2, rest, rfl, hstray⟩

end TextTemplate.ConditionToken
