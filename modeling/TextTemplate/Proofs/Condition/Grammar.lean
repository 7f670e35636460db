import TextTemplate.Condition.Parse

/-!
# The grammar of conditions

Which token lists are conditions, and how they are put together. The rules for chains are recursive on the
left, so that a chain leans to the left; the order of the nonterminals says which operator binds tighter. How
deep groups and `not`s are open inside each other is a matter of the tree and not of the rules.

The end of the module is about the tokens that the rules are applied to: the end mark stands once, at the end,
and the operators are those of comparisons.
-/

namespace TextTemplate

namespace ConditionToken

/-- The token is of a kind and has a text. -/
def Is (t : ConditionToken) (kind : Kind) (text : String) : Prop := t.kind = kind ∧ t.text = text

instance (t : ConditionToken) (kind : Kind) (text : String) : Decidable (t.Is kind text) :=
  inferInstanceAs (Decidable (_ ∧ _))

/-- An operator is one of those that compare. -/
def Spelled (t : ConditionToken) : Prop := t.kind = .operator → (Comparison.ofSymbol? t.text).isSome

end ConditionToken

namespace Condition

/-- How a condition is put together, with its operands as they are written. -/
inductive Phrase where
  | operand (text : String)
  | comparison (left : String) (operator : Comparison) (right : String)
  | group (inside : Phrase)
  | not (inside : Phrase)
  | and (left right : Phrase)
  | or (left right : Phrase)
  deriving DecidableEq, Repr

namespace Phrase

/-- The most groups and `not`s that are open at once. -/
def nesting : Phrase → Nat
  | operand _ => 0
  | comparison _ _ _ => 0
  | group inside => inside.nesting + 1
  | not inside => inside.nesting + 1
  | and left right => max left.nesting right.nesting
  | or left right => max left.nesting right.nesting

/-- The condition, with the operands compiled from left to right. -/
def compiled (compile : OperandCompiler) : Phrase → Except CompileError Condition
  | operand text => return .operand (← compile text)
  | comparison left op right => return .comparison (← compile left) op (← compile right)
  | group inside => return .group (← inside.compiled compile)
  | not inside => return .not (← inside.compiled compile)
  | and left right => return .and (← left.compiled compile) (← right.compiled compile)
  | or left right => return .or (← left.compiled compile) (← right.compiled compile)

end Phrase

namespace Grammar

/-- The operators that stand between two operands; the last one takes two tokens. -/
inductive Operator : List ConditionToken → Comparison → Prop
  | symbol {t op} (kind : t.kind = .operator) (spelled : Comparison.ofSymbol? t.text = some op) :
    Operator [t] op
  | isIn {t} (keyword : t.Is .keyword "in") : Operator [t] .isIn
  | isNotIn {t u} (first : t.Is .keyword "not") (second : u.Is .keyword "in") : Operator [t, u] .isNotIn

inductive Nonterminal where
  | orExpr
  | andExpr
  | notExpr
  | comparison

/-- The phrase that is derived of tokens. -/
inductive Derives : Nonterminal → List ConditionToken → Phrase → Prop
  | orFirst {ts p} (part : Derives .andExpr ts p) : Derives .orExpr ts p
  | orNext {ts us k p q} (before : Derives .orExpr ts p) (keyword : k.Is .keyword "or")
    (part : Derives .andExpr us q) : Derives .orExpr (ts ++ k :: us) (.or p q)
  | andFirst {ts p} (part : Derives .notExpr ts p) : Derives .andExpr ts p
  | andNext {ts us k p q} (before : Derives .andExpr ts p) (keyword : k.Is .keyword "and")
    (part : Derives .notExpr us q) : Derives .andExpr (ts ++ k :: us) (.and p q)
  | not {ts k p} (keyword : k.Is .keyword "not") (inside : Derives .notExpr ts p) :
    Derives .notExpr (k :: ts) (.not p)
  | positive {ts p} (inside : Derives .comparison ts p) : Derives .notExpr ts p
  | compared {l r os op} (left : l.kind = .operand) (operator : Operator os op) (right : r.kind = .operand) :
    Derives .comparison (l :: os ++ [r]) (.comparison l.text op r.text)
  | operand {t} (kind : t.kind = .operand) : Derives .comparison [t] (.operand t.text)
  | group {o c ts p} (opener : o.Is .symbol "(") (inside : Derives .orExpr ts p) (closer : c.Is .symbol ")") :
    Derives .comparison (o :: ts ++ [c]) (.group p)

variable {n : Nonterminal} {ts : List ConditionToken} {p : Phrase}

/-- A comparison starts with an operand or a group. -/
theorem Derives.comparison_head (h : Derives .comparison ts p) :
    ∃ t ts', ts = t :: ts' ∧ ¬t.Is .keyword "not" := by
  cases h with
  | compared left operator right => exact ⟨_, _, rfl, by simp [ConditionToken.Is, left]⟩
  | operand kind => exact ⟨_, _, rfl, by simp [ConditionToken.Is, kind]⟩
  | group opener inside closer => exact ⟨_, _, rfl, by simp [ConditionToken.Is, opener.1]⟩

theorem Derives.ne_nil (h : Derives n ts p) : ts ≠ [] := by
  induction h with
  | orFirst _ ih | andFirst _ ih | positive _ ih => exact ih
  | orNext | andNext | not | compared | operand | group => simp

theorem Operator.kind_ne_ending {os : List ConditionToken} {op : Comparison} (h : Operator os op) :
    ∀ t ∈ os, t.kind ≠ .ending := by
  cases h with
  | symbol kind spelled => simp [kind]
  | isIn keyword => simp [keyword.1]
  | isNotIn first second => simp [first.1, second.1]

/-- No end mark is derived. -/
theorem Derives.kind_ne_ending (h : Derives n ts p) : ∀ t ∈ ts, t.kind ≠ .ending := by
  induction h with
  | orFirst _ ih | andFirst _ ih | positive _ ih => exact ih
  | orNext _ keyword _ ih ih' | andNext _ keyword _ ih ih' =>
    rw [List.forall_mem_append, List.forall_mem_cons]
    exact ⟨ih, by simp [keyword.1], ih'⟩
  | not keyword _ ih =>
    rw [List.forall_mem_cons]
    exact ⟨by simp [keyword.1], ih⟩
  | compared left operator right =>
    rw [List.forall_mem_append, List.forall_mem_cons]
    exact ⟨⟨by simp [left], operator.kind_ne_ending⟩, by simp [right]⟩
  | operand kind => simp [kind]
  | group opener _ closer ih =>
    rw [List.forall_mem_append, List.forall_mem_cons]
    exact ⟨⟨by simp [opener.1], ih⟩, by simp [closer.1]⟩

/-- What is derived with at most so many groups and `not`s open at once. -/
def Within (depth : Nat) (n : Nonterminal) (ts : List ConditionToken) (p : Phrase) : Prop :=
  Derives n ts p ∧ p.nesting ≤ depth

end Grammar

end Condition

namespace ConditionToken

open Text

/-- An operator at the start of a text is one of those that compare. -/
theorem operator?_spelled {s operator after : List Char} (h : operator? s = some (operator, after)) :
    (Comparison.ofSymbol? (String.ofList operator)).isSome := by
  unfold operator? at h
  split at h <;> cases h <;> decide +kernel

/-- No token but the mark at the end is an end mark. -/
theorem first?_kind {c : Char} {rest text after : List Char} {kind : Kind} {offset : Nat}
    (h : first? c rest = some (kind, text, after)) :
    kind ≠ .ending ∧ Spelled ⟨kind, String.ofList text, offset⟩ := by
  unfold first? at h
  split at h
  · cases h
    exact ⟨nofun, nofun⟩
  · split at h
    · rename_i hoperator
      cases h
      exact ⟨nofun, fun _ => operator?_spelled hoperator⟩
    · split at h
      · cases h
      · cases h
        split <;> exact ⟨nofun, nofun⟩

/-- The end mark stands behind all other tokens, at the end of the text. -/
theorem scan_ending {s : List Char} {offset : Nat} {tokens : List ConditionToken}
    (h : scan s offset = .ok tokens) :
    ∃ ts, tokens = ts ++ [⟨.ending, "", offset + s.length⟩] ∧ ∀ t ∈ ts, t.kind ≠ .ending ∧ t.Spelled := by
  fun_induction scan s offset generalizing tokens with
  | case1 offset =>
    cases h
    exact ⟨[], rfl, nofun⟩
  | case2 offset c rest _ ih =>
    obtain ⟨ts, rfl, hts⟩ := ih h
    exact ⟨ts, by rw [List.length_cons, Nat.add_assoc, Nat.add_comm 1], hts⟩
  | case3 => cases h
  | case4 offset c rest _ kind text after hfirst ih =>
    cases hafter : scan after (offset + text.length) with
    | error e =>
      rw [hafter] at h
      cases h
    | ok later =>
      rw [hafter] at h
      cases h
      obtain ⟨ts, rfl, hts⟩ := ih hafter
      have hlength : text.length + after.length = (c :: rest).length := by
        rw [← (first?_append hfirst).1, List.length_append]
      refine ⟨⟨kind, String.ofList text, offset⟩ :: ts, ?_, ?_⟩
      · rw [← hlength, Nat.add_assoc, List.cons_append]
      · rintro t (_ | ⟨_, ht⟩)
        · exact first?_kind hfirst
        · exact hts t ht

end ConditionToken

end TextTemplate
