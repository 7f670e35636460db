import TextTemplate.Proofs.Condition.Lookahead

/-!
# What is before a report can be completed

A reader of conditions that reports a token has read up to it what its language may start with. What can complete it is
built on the way out: an operand where one is missing, and a closing parenthesis for each group that is open.
-/

namespace TextTemplate

/-- Reports over a character or token that is not in its place, or is missing there. The others are over all of a
condition, over groups that are too deep, and over a comparison. -/
def ConditionFault.isOverPlace : ConditionFault → Bool
  | strayCharacter .. | unexpectedToken _ | unexpectedEnd | operandExpected _ | unclosedGroup => true
  | empty | tooDeep | compoundLeftSide _ => false

namespace Condition

open Condition.Grammar

/-- What a report says about the tokens before the one that it is at, and about this one. -/
inductive Reports : ConditionFault → List ConditionToken → ConditionToken → Prop
  | unexpectedToken {before t} (inside : t.kind ≠ .ending) : Reports (.unexpectedToken t.text) before t
  | unexpectedEnd {before t} (ending : t.kind = .ending) : Reports .unexpectedEnd before t
  | operandExpected {before l os op t} (left : l.kind = .operand) (operator : Operator os op)
      (missing : t.kind ≠ .operand) : Reports (.operandExpected op.symbol) (before ++ l :: os) t
  | unclosedGroup {before o ts p t} (opener : o.Is .symbol "(") (inside : Derives .orExpr ts p)
      (missing : ¬t.Is .symbol ")") : Reports .unclosedGroup (before ++ o :: ts) t

namespace Parse

variable {α β : Type} {compile : OperandCompiler} {s rest us : List ConditionToken} {t : ConditionToken} {depth : Nat}
  {fault : ConditionFault} {position : Nat} {e : CompileError} {L M : List ConditionToken → Prop}

theorem run_bind_eq_error {m : ParseM α} {f : α → ParseM β} : (m >>= f).run s = .error e ↔
    m.run s = .error e ∨ ∃ a s', m.run s = .ok (a, s') ∧ (f a).run s' = .error e := by
  rw [StateT.run_bind]
  cases m.run s with
  | error e' => simp [bind, Except.bind]
  | ok found =>
    obtain ⟨a, s'⟩ := found
    simp only [bind, Except.bind, reduceCtorEq, false_or, Except.ok.injEq, Prod.mk.injEq]
    constructor
    · exact fun h => ⟨a, s', ⟨rfl, rfl⟩, h⟩
    · rintro ⟨_, _, ⟨rfl, rfl⟩, h⟩
      exact h

/-- A report is at one of the tokens, and what is before the token can be completed. -/
def PointsAt (s : List ConditionToken) (fault : ConditionFault) (position : Nat) (L : List ConditionToken → Prop) :
    Prop :=
  ∃ before t after, s = before ++ t :: after ∧ position = t.offset ∧ Reports fault before t ∧ ∃ more, L (before ++ more)

theorem PointsAt.mono (h : PointsAt s fault position L) (himp : ∀ ts, L ts → M ts) : PointsAt s fault position M := by
  obtain ⟨before, t, after, hs, hposition, hreports, more, hmore⟩ := h
  exact ⟨before, t, after, hs, hposition, hreports, more, himp _ hmore⟩

/-- Tokens in front of those that a report is about, and of what completes them. -/
theorem PointsAt.behind (h : PointsAt s fault position L) (us : List ConditionToken)
    (himp : ∀ ts, L ts → ∃ more, M (us ++ ts ++ more)) : PointsAt (us ++ s) fault position M := by
  obtain ⟨before, t, after, rfl, hposition, hreports, more, hmore⟩ := h
  obtain ⟨more', hmore'⟩ := himp _ hmore
  refine ⟨us ++ before, t, after, (List.append_assoc _ _ _).symm, hposition, ?_, more ++ more', by simpa using hmore'⟩
  cases hreports with
  | unexpectedToken inside => exact .unexpectedToken inside
  | unexpectedEnd ending => exact .unexpectedEnd ending
  | operandExpected left operator missing =>
    rw [← List.append_assoc]
    exact .operandExpected left operator missing
  | unclosedGroup opener inside missing =>
    rw [← List.append_assoc]
    exact .unclosedGroup opener inside missing

/-- A reader of a language reports at tokens up to which what it has read can be completed. -/
def Points (m : ParseM Condition) (L : List ConditionToken → Phrase → Prop) : Prop :=
  ∀ ⦃s e fault position⦄, Marked s → (∀ t ∈ s, t.Spelled) → m.run s = .error e →
    e.cause = .condition fault position → fault.isOverPlace = true → PointsAt s fault position fun ts => ∃ p, L ts p

theorem fail_points (hfault : fault.isOverPlace = false) (L : List ConditionToken → Phrase → Prop) :
    Points (fail fault) L := by
  intro s e fault' position hs _ h hcause hplace
  obtain ⟨t, s, rfl⟩ := hs.exists_cons
  cases h
  cases hcause
  rw [hfault] at hplace
  cases hplace

section Comparison

variable {inside : ParseM Condition}
  (hsound : Sound compile inside fun ts p => Derives .orExpr ts p ∧ p.nesting < depth)
  (hpoints : Points inside fun ts p => Derives .orExpr ts p ∧ p.nesting < depth)

include hsound hpoints in
/-- Behind an opening parenthesis the report is over what is inside, or over what is in place of the closing one. -/
theorem group_points {o : ConditionToken} (ho : o.Is .symbol "(") (hs : Marked s) (hspelled : ∀ t ∈ s, t.Spelled)
    (hcause : e.cause = .condition fault position) (hplace : fault.isOverPlace = true)
    (h : (do
      let c ← inside
      if ← accept .symbol ")" then return .group c else fail .unclosedGroup : ParseM Condition).run s = .error e) :
    PointsAt (o :: s) fault position fun ts => ∃ p, Within depth .comparison ts p := by
  have hclosed {ts : List ConditionToken} {p : Phrase} (hts : Derives .orExpr ts p ∧ p.nesting < depth) :
      Within depth .comparison (o :: ts ++ [⟨.symbol, ")", 0⟩]) (.group p) :=
    ⟨.group ho hts.1 ⟨rfl, rfl⟩, hts.2⟩
  obtain hinside | ⟨c, rest, hinside, hclose⟩ := run_bind_eq_error.mp h
  · refine (hpoints hs hspelled hinside hcause hplace).behind [o] ?_
    rintro ts ⟨p, hts⟩
    exact ⟨_, _, hclosed hts⟩
  obtain ⟨ts, p, rfl, hts, -⟩ := hsound hspelled hinside
  obtain ⟨t, rest, rfl⟩ := (hs.of_append hts.1.kind_ne_ending).exists_cons
  rw [accept_branch_run] at hclose
  split at hclose
  · cases hclose
  · rename_i ht
    cases hclose
    cases hcause
    have hreports : Reports .unclosedGroup ([] ++ o :: ts) t := .unclosedGroup ho hts.1 ht
    exact ⟨o :: ts, t, rest, rfl, rfl, hreports, _, _, hclosed hts⟩

variable (hcompile : ∀ text, FailsWith CompileError.OffCondition (compile text))
include hcompile

/-- Where an operand is missing, the token that is there in its place is reported. -/
theorem operand_run_eq_error {missing : ConditionFault} (hs : Marked s) (hcause : e.cause = .condition fault position)
    (h : (operand compile missing).run s = .error e) :
    ∃ t rest, s = t :: rest ∧ t.kind ≠ .operand ∧ fault = missing ∧ position = t.offset := by
  obtain ⟨t, s, rfl⟩ := hs.exists_cons
  by_cases ht : t.kind = .operand
  · rw [operand_run_cons ht] at h
    cases hc : compile t.text with
    | error e' =>
      rw [hc] at h
      cases h
      exact absurd hcause (hcompile _ _ hc _ _)
    | ok expression =>
      rw [hc] at h
      cases h
  · rw [operand_run_of_ne ht] at h
    cases h
    cases hcause
    exact ⟨t, s, rfl, ht, rfl, rfl⟩

include hsound hpoints in
theorem primary_points : Points (primary compile inside) (Within depth .comparison) := by
  intro s e fault position hs hspelled h hcause hplace
  have hoperand : Within depth .comparison [⟨.operand, "", 0⟩] (.operand "") := ⟨.operand rfl, Nat.zero_le _⟩
  obtain ⟨t, s, rfl⟩ := hs.exists_cons
  rw [primary, accept_branch_run] at h
  split at h
  · rename_i ht
    exact group_points hsound hpoints ht (hs.tail (by simp [ht.1])) (List.forall_mem_cons.mp hspelled).2 hcause hplace h
  · rw [run_bind_of_ok (current_run_cons t s)] at h
    split at h
    · rename_i hkind
      obtain hmissing | ⟨expression, rest, -, hpure⟩ := run_bind_eq_error.mp h
      · obtain ⟨u, rest, heq, hu, -⟩ := operand_run_eq_error hcompile hs hcause hmissing
        cases heq
        exact absurd hkind hu
      · cases hpure
    · rename_i hkind
      cases h
      cases hcause
      exact ⟨[], t, s, rfl, rfl, .unexpectedEnd hkind, _, _, hoperand⟩
    · rename_i hkind
      cases h
      cases hcause
      exact ⟨[], t, s, rfl, rfl, .unexpectedToken hkind, _, _, hoperand⟩

include hsound hpoints in
theorem comparison_points : Points (comparison compile inside) (Within depth .comparison) := by
  intro s e fault position hs hspelled h hcause hplace
  rw [comparison] at h
  obtain hprimary | ⟨left, rest, hprimary, hlater⟩ := run_bind_eq_error.mp h
  · exact primary_points hsound hpoints hcompile hs hspelled hprimary hcause hplace
  obtain hoperator | ⟨found, rest', hoperator, hright⟩ := run_bind_eq_error.mp hlater
  · exact absurd hoperator (operator?_run_ne_error _ _)
  cases found with
  | none => cases hright
  | some op =>
    obtain ⟨t, e', rfl, ht, -, rfl⟩ | ⟨o, k, c, s', rfl, -, -, -, rfl⟩ := primary_run_eq_ok hprimary
    · obtain ⟨⟨⟩, -⟩ | ⟨os, op', ⟨⟩, rfl, hop⟩ :=
        operator?_run_eq_ok (List.forall_mem_cons.mp hspelled).2 hoperator
      obtain hmissing | ⟨expression, rest, -, hpure⟩ := run_bind_eq_error.mp hright
      · have hrest' : Marked rest' := (hs.tail (by simp [ht])).of_append hop.kind_ne_ending
        obtain ⟨u, rest, rfl, hu, rfl, rfl⟩ := operand_run_eq_error hcompile hrest' hcause hmissing
        have hreports : Reports (.operandExpected op.symbol) ([] ++ t :: os) u := .operandExpected ht hop hu
        have hcompared := Derives.compared (r := ⟨.operand, "", 0⟩) ht hop rfl
        exact ⟨t :: os, u, rest, rfl, rfl, hreports, [⟨.operand, "", 0⟩], _, hcompared, Nat.zero_le _⟩
      · cases hpure
    · cases rest' <;> cases hright <;> cases hcause <;> cases hplace

end Comparison

section Chain

variable {keyword : String} {join : Condition → Condition → Condition} {joined : Phrase → Phrase → Phrase}
  {part : ParseM Condition} {Part Chain : List ConditionToken → Phrase → Prop}
  (hsound : Sound compile part Part) (hpart : Points part Part)
  (hends : ∀ {ts p}, Part ts p → ∀ t ∈ ts, t.kind ≠ .ending)
  (hnext : ∀ {ts us k p q}, Chain ts p → k.Is .keyword keyword → Part us q → Chain (ts ++ k :: us) (joined p q))
include hsound hpart hends hnext

theorem chainFrom_points {n : Nat} {left : Condition} {ts : List ConditionToken} {p : Phrase} (hchain : Chain ts p)
    (hs : Marked s) (hspelled : ∀ t ∈ s, t.Spelled) (h : (chainFrom keyword join part n left).run s = .error e)
    (hcause : e.cause = .condition fault position) (hplace : fault.isOverPlace = true) :
    PointsAt s fault position fun us => ∃ q, Chain (ts ++ us) q := by
  induction n generalizing left ts p s with
  | zero => cases h
  | succ n ih =>
    obtain ⟨k, s, rfl⟩ := hs.exists_cons
    rw [chainFrom, accept_branch_run] at h
    split at h
    · rename_i hk
      have hs' := hs.tail (by simp [hk.1])
      have hspelled' := (List.forall_mem_cons.mp hspelled).2
      obtain hright | ⟨right, rest, hright, hlater⟩ := run_bind_eq_error.mp h
      · refine (hpart hs' hspelled' hright hcause hplace).behind [k] ?_
        rintro us ⟨q, hus⟩
        exact ⟨[], joined p q, by simpa using hnext hchain hk hus⟩
      · obtain ⟨us, q, rfl, hus, -⟩ := hsound hspelled' hright
        have hrest := hs'.of_append (hends hus)
        have hlater' := ih (hnext hchain hk hus) hrest (fun t ht => hspelled' t (List.mem_append_right _ ht)) hlater
        refine hlater'.behind (k :: us) ?_
        rintro vs ⟨r, hvs⟩
        exact ⟨[], r, by simpa using hvs⟩
    · cases h

theorem chain_points (hfirst : ∀ {ts p}, Part ts p → Chain ts p) : Points (chain keyword join part) Chain := by
  intro s e fault position hs hspelled h hcause hplace
  rw [chain] at h
  obtain hleft | ⟨left, rest, hleft, hlater⟩ := run_bind_eq_error.mp h
  · refine (hpart hs hspelled hleft hcause hplace).mono ?_
    rintro ts ⟨p, hts⟩
    exact ⟨p, hfirst hts⟩
  · obtain ⟨ts, p, rfl, hts, -⟩ := hsound hspelled hleft
    have hrest := hs.of_append (hends hts)
    have hspelled' : ∀ t ∈ rest, t.Spelled := fun t ht => hspelled t (List.mem_append_right _ ht)
    have hlater' := chainFrom_points hsound hpart hends hnext (hfirst hts) hrest hspelled' hlater hcause hplace
    refine hlater'.behind ts ?_
    rintro us ⟨q, hus⟩
    exact ⟨[], q, by simpa using hus⟩

end Chain

theorem disjunction_points {part : ParseM Condition} (hsound : Sound compile part (Within depth .notExpr))
    (hpart : Points part (Within depth .notExpr)) : Points (disjunction part) (Within depth .orExpr) := by
  have hand : Points (chain "and" .and part) (Within depth .andExpr) :=
    chain_points hsound hpart (fun h => h.1.kind_ne_ending)
      (fun h hk h' => ⟨.andNext h.1 hk h'.1, Nat.max_le.mpr ⟨h.2, h'.2⟩⟩) (fun h => ⟨.andFirst h.1, h.2⟩)
  exact chain_points (conjunction_sound hsound) hand (fun h => h.1.kind_ne_ending)
    (fun h hk h' => ⟨.orNext h.1 hk h'.1, Nat.max_le.mpr ⟨h.2, h'.2⟩⟩) (fun h => ⟨.orFirst h.1, h.2⟩)

section Negation

variable (hcompile : ∀ text, FailsWith CompileError.OffCondition (compile text))

include hcompile in
/-- A negation points at tokens if what stands after `not` and what stands in groups does. -/
theorem negation_points_of
    (hnegated : Points (negated compile depth) fun ts p =>
      ∃ q, p = .not q ∧ Derives .notExpr ts q ∧ q.nesting < depth)
    (hsound : Sound compile (grouped compile depth) fun ts p => Derives .orExpr ts p ∧ p.nesting < depth)
    (hgrouped : Points (grouped compile depth) fun ts p => Derives .orExpr ts p ∧ p.nesting < depth) :
    Points (negation compile depth) (Within depth .notExpr) := by
  intro s e fault position hs hspelled h hcause hplace
  obtain ⟨t, s, rfl⟩ := hs.exists_cons
  rw [negation_eq, accept_branch_run] at h
  split at h
  · rename_i ht
    refine (hnegated (hs.tail (by simp [ht.1])) (List.forall_mem_cons.mp hspelled).2 h hcause hplace).behind [t] ?_
    rintro ts ⟨_, q, rfl, hderives, hnesting⟩
    exact ⟨[], .not q, by simpa using Derives.not ht hderives, hnesting⟩
  · refine (comparison_points hsound hgrouped hcompile hs hspelled h hcause hplace).mono ?_
    rintro ts ⟨p, hderives, hnesting⟩
    exact ⟨p, .positive hderives, hnesting⟩

theorem negated_points (h : Points (negation compile depth) (Within depth .notExpr)) :
    Points (negated compile (depth + 1)) fun ts p =>
      ∃ q, p = .not q ∧ Derives .notExpr ts q ∧ q.nesting < depth + 1 := by
  intro s e fault position hs hspelled hrun hcause hplace
  rw [negated] at hrun
  obtain hinside | ⟨c, rest, -, hpure⟩ := run_bind_eq_error.mp hrun
  · refine (h hs hspelled hinside hcause hplace).mono ?_
    rintro ts ⟨p, hderives, hnesting⟩
    exact ⟨.not p, p, rfl, hderives, Nat.lt_succ_of_le hnesting⟩
  · cases hpure

theorem grouped_points (h : Points (negation compile depth) (Within depth .notExpr)) :
    Points (grouped compile (depth + 1)) fun ts p => Derives .orExpr ts p ∧ p.nesting < depth + 1 := by
  intro s e fault position hs hspelled hrun hcause hplace
  refine (disjunction_points (negation_sound depth) h hs hspelled hrun hcause hplace).mono ?_
  rintro ts ⟨p, hderives, hnesting⟩
  exact ⟨p, hderives, Nat.lt_succ_of_le hnesting⟩

include hcompile in
theorem negation_points (depth : Nat) : Points (negation compile depth) (Within depth .notExpr) := by
  induction depth with
  | zero => exact negation_points_of hcompile (fail_points rfl _) (fail_sound _ _) (fail_points rfl _)
  | succ depth ih =>
    exact negation_points_of hcompile (negated_points ih) (grouped_sound (negation_sound depth))
      (grouped_points ih)

end Negation

end Parse

end Condition

end TextTemplate
