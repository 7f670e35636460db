import TextTemplate.Proofs.Condition.Grammar

/-!
# Conditions that are read are derived

The readers of conditions by what they take. Each takes tokens that are derived from its nonterminal, with no
more groups and `not`s open at once than it has room for, and answers with the phrase compiled. The induction
is on that room: the readers of what stands after `not` and in a group have one less.

A reader that meets an unknown operator would drop it, so what is read must spell its operators.
-/

namespace TextTemplate.Condition

namespace Parse

open Grammar

variable {α β : Type} {compile : OperandCompiler} {s rest : List ConditionToken} {t : ConditionToken}
  {depth : Nat}

theorem run_bind_eq_ok {m : ParseM α} {f : α → ParseM β} {b : β} :
    (m >>= f).run s = .ok (b, rest) ↔ ∃ a s', m.run s = .ok (a, s') ∧ (f a).run s' = .ok (b, rest) := by
  rw [StateT.run_bind]
  constructor
  · intro h
    cases hm : m.run s with
    | error e =>
      rw [hm] at h
      cases h
    | ok found =>
      rw [hm] at h
      exact ⟨found.1, found.2, rfl, h⟩
  · rintro ⟨a, s', hm, h⟩
    rw [hm]
    exact h

/-- After a part that has been read, the next one reads on. -/
theorem run_bind_of_ok {m : ParseM α} {a : α} (h : m.run s = .ok (a, rest)) (f : α → ParseM β) :
    (m >>= f).run s = (f a).run rest := by
  rw [StateT.run_bind, h]
  rfl

@[simp] theorem current_run_cons (t : ConditionToken) (s : List ConditionToken) :
    current.run (t :: s) = .ok (t, t :: s) := rfl

theorem current_run_eq_ok (h : current.run s = .ok (t, rest)) : s = rest := by
  cases s <;> cases h <;> rfl

theorem run_pure_eq_ok {a b : α} : (pure a : ParseM α).run s = .ok (b, rest) ↔ a = b ∧ s = rest := by
  rw [StateT.run_pure]
  simp [pure, Except.pure]

theorem fail_run_ne_ok (fault : ConditionFault) (a : α) : (fail fault).run s ≠ .ok (a, rest) := by
  cases s <;> exact nofun

theorem accept_run_cons (kind : ConditionToken.Kind) (text : String) :
    (accept kind text).run (t :: s) = if t.Is kind text then .ok (true, s) else .ok (false, t :: s) := by
  by_cases h : t.Is kind text
  · rw [if_pos h]
    obtain ⟨rfl, rfl⟩ := h
    simp [accept, current, advance]
    rfl
  · rw [if_neg h]
    simp only [ConditionToken.Is] at h
    simp [accept, current, h]
    rfl

theorem accept_run_nil {kind : ConditionToken.Kind} (hkind : kind ≠ .ending) (text : String) :
    (accept kind text).run [] = .ok (false, []) := by
  simp [accept, current, hkind.symm]
  rfl

/-- A token was taken if it was asked for, and only then. -/
theorem accept_run_eq_ok {kind : ConditionToken.Kind} {text : String} {b : Bool}
    (h : (accept kind text).run s = .ok (b, rest)) (hkind : kind ≠ .ending) :
    (b = true ∧ ∃ t : ConditionToken, t.Is kind text ∧ s = t :: rest) ∨ (b = false ∧ s = rest) := by
  cases s with
  | nil =>
    rw [accept_run_nil hkind] at h
    cases h
    exact .inr ⟨rfl, rfl⟩
  | cons t s =>
    rw [accept_run_cons] at h
    split at h
    · cases h
      exact .inl ⟨rfl, t, by assumption, rfl⟩
    · cases h
      exact .inr ⟨rfl, rfl⟩

theorem operand_run_eq_ok {fault : ConditionFault} {e : Expression}
    (h : (operand compile fault).run s = .ok (e, rest)) :
    ∃ t : ConditionToken, s = t :: rest ∧ t.kind = .operand ∧ compile t.text = .ok e := by
  cases s with
  | nil => cases h
  | cons t s =>
    simp only [operand, run_bind_eq_ok] at h
    obtain ⟨_, _, hcurrent, h⟩ := h
    cases hcurrent
    split at h
    · rename_i hkind
      rw [run_bind_eq_ok] at h
      obtain ⟨_, _, hadvance, h⟩ := h
      cases hadvance
      refine ⟨t, ?_, by simpa using hkind, ?_⟩
      all_goals
        cases hc : compile t.text with
        | error e' =>
          rw [hc] at h
          cases h
        | ok e' =>
          rw [hc] at h
          cases h
          rfl
    · exact absurd h (fail_run_ne_ok _ _)

theorem operator?_run_cons (t : ConditionToken) (s : List ConditionToken) :
    operator?.run (t :: s) =
      if t.kind = .operator then .ok (Comparison.ofSymbol? t.text, s)
      else if t.Is .keyword "in" then .ok (some .isIn, s)
      else match s with
        | u :: s' =>
          if t.Is .keyword "not" ∧ u.Is .keyword "in" then .ok (some .isNotIn, s') else .ok (none, t :: s)
        | [] => .ok (none, [t]) := by
  rw [operator?, run_bind_of_ok (current_run_cons t s)]
  by_cases hoperator : t.kind = .operator
  · simp only [hoperator, beq_self_eq_true, if_true]
    rfl
  simp only [beq_iff_eq, hoperator, if_false]
  have haccept := accept_run_cons (t := t) (s := s) .keyword "in"
  by_cases hin : t.Is .keyword "in"
  · rw [if_pos hin] at haccept
    rw [run_bind_of_ok haccept, if_pos hin]
    rfl
  rw [if_neg hin] at haccept
  rw [run_bind_of_ok haccept, if_neg hin]
  cases s with
  | nil => rfl
  | cons u s' =>
    by_cases hnot : t.Is .keyword "not" ∧ u.Is .keyword "in"
    · obtain ⟨⟨hkind, htext⟩, hkind', htext'⟩ := id hnot
      simp [hnot, hkind, htext, hkind', htext']
      rfl
    · have hnot' : ¬(((t.kind = .keyword ∧ t.text = "not") ∧ u.kind = .keyword) ∧ u.text = "in") := by
        simpa [ConditionToken.Is, and_assoc] using hnot
      simp [hnot, hnot']
      rfl

theorem operator?_run_eq_ok {found : Option Comparison} (hs : ∀ t ∈ s, t.Spelled)
    (h : operator?.run s = .ok (found, rest)) :
    (found = none ∧ s = rest) ∨ ∃ os op, found = some op ∧ s = os ++ rest ∧ Operator os op := by
  cases s with
  | nil =>
    cases h
    exact .inl ⟨rfl, rfl⟩
  | cons t s =>
    rw [operator?_run_cons] at h
    split at h
    · rename_i hkind
      cases h
      obtain ⟨op, hop⟩ := Option.isSome_iff_exists.mp (hs t List.mem_cons_self hkind)
      exact .inr ⟨[t], op, hop, rfl, .symbol hkind hop⟩
    split at h
    · rename_i hin
      cases h
      exact .inr ⟨[t], .isIn, rfl, rfl, .isIn hin⟩
    split at h
    · rename_i u s'
      split at h
      · rename_i hnot
        cases h
        exact .inr ⟨[t, u], .isNotIn, rfl, rfl, .isNotIn hnot.1 hnot.2⟩
      · cases h
        exact .inl ⟨rfl, rfl⟩
    · cases h
      exact .inl ⟨rfl, rfl⟩

/-- A primary is one operand, or what a group reads between its parentheses. -/
theorem primary_run_eq_ok {inside : ParseM Condition} {c : Condition}
    (h : (primary compile inside).run s = .ok (c, rest)) :
    (∃ t e, s = t :: rest ∧ t.kind = .operand ∧ compile t.text = .ok e ∧ c = .operand e) ∨
      ∃ o k c' s', s = o :: s' ∧ o.Is .symbol "(" ∧ inside.run s' = .ok (c', k :: rest) ∧ k.Is .symbol ")" ∧
        c = .group c' := by
  rw [primary, run_bind_eq_ok] at h
  obtain ⟨taken, s', haccept, h⟩ := h
  obtain ⟨rfl, o, hopener, rfl⟩ | ⟨rfl, rfl⟩ := accept_run_eq_ok haccept nofun
  · rw [if_pos rfl, run_bind_eq_ok] at h
    obtain ⟨c', s₁, hinside, h⟩ := h
    rw [run_bind_eq_ok] at h
    obtain ⟨closed, s₂, hclosed, h⟩ := h
    obtain ⟨rfl, k, hcloser, rfl⟩ | ⟨rfl, rfl⟩ := accept_run_eq_ok hclosed nofun
    · rw [if_pos rfl, run_pure_eq_ok] at h
      obtain ⟨rfl, rfl⟩ := h
      exact .inr ⟨o, k, c', s', rfl, hopener, hinside, hcloser, rfl⟩
    · exact absurd h (fail_run_ne_ok _ _)
  · rw [if_neg nofun, run_bind_eq_ok] at h
    obtain ⟨t, s₁, hcurrent, h⟩ := h
    obtain rfl := current_run_eq_ok hcurrent
    split at h
    · rw [run_bind_eq_ok] at h
      obtain ⟨e, s₂, hoperand, h⟩ := h
      obtain ⟨u, rfl, hkind, hcompile⟩ := operand_run_eq_ok hoperand
      rw [run_pure_eq_ok] at h
      obtain ⟨rfl, rfl⟩ := h
      exact .inl ⟨u, e, rfl, hkind, hcompile, rfl⟩
    · exact absurd h (fail_run_ne_ok _ _)
    · exact absurd h (fail_run_ne_ok _ _)

/-- What a reader takes in front of a rest is in a language, and its answer is compiled from the phrase. -/
def Sound (compile : OperandCompiler) (m : ParseM Condition) (L : List ConditionToken → Phrase → Prop) :
    Prop :=
  ∀ ⦃s rest : List ConditionToken⦄ ⦃c : Condition⦄, (∀ t ∈ s, t.Spelled) → m.run s = .ok (c, rest) →
    ∃ ts p, s = ts ++ rest ∧ L ts p ∧ p.compiled compile = .ok c

theorem fail_sound (fault : ConditionFault) (L : List ConditionToken → Phrase → Prop) :
    Sound compile (fail fault) L :=
  fun _ _ _ _ h => absurd h (fail_run_ne_ok _ _)

theorem comparison_sound {inside : ParseM Condition}
    (hinside : Sound compile inside fun ts p => Derives .orExpr ts p ∧ p.nesting < depth) :
    Sound compile (comparison compile inside) (Within depth .comparison) := by
  intro s rest c hs h
  rw [comparison, run_bind_eq_ok] at h
  obtain ⟨left, s₁, hprimary, h⟩ := h
  rw [run_bind_eq_ok] at h
  obtain ⟨found, s₂, hoperator, h⟩ := h
  obtain ⟨t, e, rfl, hkind, hcompile, rfl⟩ | ⟨o, k, c', s', rfl, hopener, hrun, hcloser, rfl⟩ :=
    primary_run_eq_ok hprimary
  · obtain ⟨rfl, rfl⟩ | ⟨os, op, rfl, rfl, hop⟩ :=
      operator?_run_eq_ok (fun u hu => hs u (List.mem_cons_of_mem _ hu)) hoperator
    · obtain ⟨rfl, rfl⟩ := run_pure_eq_ok.mp h
      refine ⟨[t], .operand t.text, rfl, ⟨.operand hkind, Nat.zero_le _⟩, ?_⟩
      rw [Phrase.compiled, hcompile]
      rfl
    · simp only [run_bind_eq_ok] at h
      obtain ⟨right, s₃, hright, h⟩ := h
      obtain ⟨r, rfl, hkind', hcompile'⟩ := operand_run_eq_ok hright
      obtain ⟨rfl, rfl⟩ := run_pure_eq_ok.mp h
      have hderives := Derives.compared hkind hop hkind'
      refine ⟨t :: os ++ [r], .comparison t.text op r.text, by simp, ⟨hderives, Nat.zero_le _⟩, ?_⟩
      rw [Phrase.compiled, hcompile, hcompile']
      rfl
  · have hs' : ∀ u ∈ s', u.Spelled := fun u hu => hs u (List.mem_cons_of_mem _ hu)
    obtain ⟨ts, p, rfl, ⟨hderives, hnesting⟩, hcompiled⟩ := hinside hs' hrun
    obtain ⟨rfl, rfl⟩ | ⟨os, op, rfl, -, -⟩ :=
      operator?_run_eq_ok (fun u hu => hs' u (by simp [hu])) hoperator
    · obtain ⟨rfl, rfl⟩ := run_pure_eq_ok.mp h
      refine ⟨o :: ts ++ [k], .group p, by simp, ⟨.group hopener hderives hcloser, hnesting⟩, ?_⟩
      rw [Phrase.compiled, hcompiled]
      rfl
    · exact absurd h (fail_run_ne_ok _ _)

section Chain

variable {keyword : String} {join : Condition → Condition → Condition} {joined : Phrase → Phrase → Phrase}
  {part : ParseM Condition} {Part Chain : List ConditionToken → Phrase → Prop}

theorem chainFrom_sound (hpart : Sound compile part Part)
    (hnext : ∀ {ts us k p q}, Chain ts p → k.Is .keyword keyword → Part us q →
      Chain (ts ++ k :: us) (joined p q))
    (hjoined : ∀ p q, (joined p q).compiled compile = do
      return join (← p.compiled compile) (← q.compiled compile))
    {n : Nat} {left c : Condition} {ts : List ConditionToken} {p : Phrase} (hchain : Chain ts p)
    (hleft : p.compiled compile = .ok left) (hs : ∀ t ∈ s, t.Spelled)
    (h : (chainFrom keyword join part n left).run s = .ok (c, rest)) :
    ∃ us q, s = us ++ rest ∧ Chain (ts ++ us) q ∧ q.compiled compile = .ok c := by
  induction n generalizing left ts p s with
  | zero =>
    obtain ⟨rfl, rfl⟩ := run_pure_eq_ok.mp h
    exact ⟨[], p, rfl, by simpa using hchain, hleft⟩
  | succ n ih =>
    rw [chainFrom, run_bind_eq_ok] at h
    obtain ⟨taken, s₁, haccept, h⟩ := h
    obtain ⟨rfl, k, hkeyword, rfl⟩ | ⟨rfl, rfl⟩ := accept_run_eq_ok haccept nofun
    · rw [if_pos rfl, run_bind_eq_ok] at h
      obtain ⟨right, s₂, hright, h⟩ := h
      have hs₁ : ∀ u ∈ s₁, u.Spelled := fun u hu => hs u (List.mem_cons_of_mem _ hu)
      obtain ⟨us, q, rfl, hpart', hcompiled⟩ := hpart hs₁ hright
      have hjoin : (joined p q).compiled compile = .ok (join left right) := by
        rw [hjoined, hleft, hcompiled]
        rfl
      obtain ⟨vs, r, rfl, hchain', hcompiled'⟩ :=
        ih (hnext hchain hkeyword hpart') hjoin (fun u hu => hs₁ u (by simp [hu])) h
      exact ⟨k :: us ++ vs, r, by simp, by simpa using hchain', hcompiled'⟩
    · rw [if_neg nofun, run_pure_eq_ok] at h
      obtain ⟨rfl, rfl⟩ := h
      exact ⟨[], p, rfl, by simpa using hchain, hleft⟩

/-- A chain is sound if its parts are and the language has the two rules of a chain. -/
theorem chain_sound (hpart : Sound compile part Part) (hfirst : ∀ {ts p}, Part ts p → Chain ts p)
    (hnext : ∀ {ts us k p q}, Chain ts p → k.Is .keyword keyword → Part us q →
      Chain (ts ++ k :: us) (joined p q))
    (hjoined : ∀ p q, (joined p q).compiled compile = do
      return join (← p.compiled compile) (← q.compiled compile)) :
    Sound compile (chain keyword join part) Chain := by
  intro s rest c hs h
  rw [chain, run_bind_eq_ok] at h
  obtain ⟨left, s₁, hleft, h⟩ := h
  obtain ⟨ts, p, rfl, hpart', hcompiled⟩ := hpart hs hleft
  obtain ⟨us, q, rfl, hchain, hcompiled'⟩ :=
    chainFrom_sound hpart hnext hjoined (hfirst hpart') hcompiled (fun u hu => hs u (by simp [hu])) h
  exact ⟨ts ++ us, q, by simp, hchain, hcompiled'⟩

end Chain

theorem conjunction_sound {part : ParseM Condition} (hpart : Sound compile part (Within depth .notExpr)) :
    Sound compile (chain "and" .and part) (Within depth .andExpr) :=
  chain_sound hpart (fun h => ⟨.andFirst h.1, h.2⟩)
    (fun h hk h' => ⟨.andNext h.1 hk h'.1, Nat.max_le.mpr ⟨h.2, h'.2⟩⟩) (fun _ _ => rfl)

theorem disjunction_sound {part : ParseM Condition}
    (hpart : Sound compile part (Within depth .notExpr)) :
    Sound compile (disjunction part) (Within depth .orExpr) :=
  chain_sound (conjunction_sound hpart) (fun h => ⟨.orFirst h.1, h.2⟩)
    (fun h hk h' => ⟨.orNext h.1 hk h'.1, Nat.max_le.mpr ⟨h.2, h'.2⟩⟩) (fun _ _ => rfl)

/-- The reader of what stands after `not`, where there is room for so many open groups and `not`s. -/
def negated (compile : OperandCompiler) : (depth : Nat) → ParseM Condition
  | 0 => fail .tooDeep
  | depth + 1 => return .not (← negation compile depth)

/-- The reader of what stands in a group, where there is room for so many open groups and `not`s. -/
def grouped (compile : OperandCompiler) : (depth : Nat) → ParseM Condition
  | 0 => fail .tooDeep
  | depth + 1 => disjunction (negation compile depth)

theorem negation_eq (depth : Nat) :
    negation compile depth = (do
      if ← accept .keyword "not" then negated compile depth
      else comparison compile (grouped compile depth)) := by
  cases depth <;> rfl

/-- A negation is sound if what stands after `not` and what stands in groups is read soundly. -/
theorem negation_sound_of
    (hnegated : Sound compile (negated compile depth) fun ts p =>
      ∃ q, p = .not q ∧ Derives .notExpr ts q ∧ q.nesting < depth)
    (hgrouped : Sound compile (grouped compile depth) fun ts p => Derives .orExpr ts p ∧ p.nesting < depth) :
    Sound compile (negation compile depth) (Within depth .notExpr) := by
  intro s rest c hs h
  rw [negation_eq, run_bind_eq_ok] at h
  obtain ⟨taken, s', haccept, h⟩ := h
  obtain ⟨rfl, k, hkeyword, rfl⟩ | ⟨rfl, rfl⟩ := accept_run_eq_ok haccept nofun
  · obtain ⟨ts, p, rfl, ⟨q, rfl, hderives, hnesting⟩, hcompiled⟩ :=
      hnegated (fun u hu => hs u (List.mem_cons_of_mem _ hu)) h
    exact ⟨k :: ts, .not q, rfl, ⟨.not hkeyword hderives, hnesting⟩, hcompiled⟩
  · obtain ⟨ts, p, rfl, ⟨hderives, hnesting⟩, hcompiled⟩ := comparison_sound hgrouped hs h
    exact ⟨ts, p, rfl, ⟨.positive hderives, hnesting⟩, hcompiled⟩

theorem negated_sound (h : Sound compile (negation compile depth) (Within depth .notExpr)) :
    Sound compile (negated compile (depth + 1)) fun ts p =>
      ∃ q, p = .not q ∧ Derives .notExpr ts q ∧ q.nesting < depth + 1 := by
  intro s rest c hs hrun
  rw [negated, run_bind_eq_ok] at hrun
  obtain ⟨c', s', hrun, hpure⟩ := hrun
  obtain ⟨rfl, rfl⟩ := run_pure_eq_ok.mp hpure
  obtain ⟨ts, p, rfl, ⟨hderives, hnesting⟩, hcompiled⟩ := h hs hrun
  refine ⟨ts, .not p, rfl, ⟨p, rfl, hderives, Nat.lt_succ_of_le hnesting⟩, ?_⟩
  rw [Phrase.compiled, hcompiled]
  rfl

theorem grouped_sound (h : Sound compile (negation compile depth) (Within depth .notExpr)) :
    Sound compile (grouped compile (depth + 1)) fun ts p => Derives .orExpr ts p ∧ p.nesting < depth + 1 := by
  intro s rest c hs hrun
  obtain ⟨ts, p, rfl, ⟨hderives, hnesting⟩, hcompiled⟩ := disjunction_sound h hs hrun
  exact ⟨ts, p, rfl, ⟨hderives, Nat.lt_succ_of_le hnesting⟩, hcompiled⟩

theorem negation_sound (depth : Nat) : Sound compile (negation compile depth) (Within depth .notExpr) := by
  induction depth with
  | zero => exact negation_sound_of (fail_sound _ _) (fail_sound _ _)
  | succ depth ih => exact negation_sound_of (negated_sound ih) (grouped_sound ih)

end Parse

end TextTemplate.Condition
