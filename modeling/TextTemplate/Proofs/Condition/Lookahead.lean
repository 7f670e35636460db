import TextTemplate.Proofs.Condition.Acceptance
import TextTemplate.Proofs.Expression.Grammar

/-!
# How far readers of conditions look ahead

A reader of a condition decides on the next token, and where that is a `not` on the one behind it too. What it does with
the tokens up to there, it does whatever follows: it takes the same tokens with the same answer, or fails in the same
place in the same way.

A chain may take as many parts as there are tokens, so its bound depends on all that follows; but the bound is never
reached.
-/

namespace TextTemplate

/-- A failure that is not over how a condition is put together. -/
def CompileError.OffCondition (e : CompileError) : Prop := ∀ fault position, e.cause ≠ .condition fault position

namespace Condition.Parse

variable {α β : Type} {compile : OperandCompiler} {s rest : List ConditionToken} {t : ConditionToken}

/-- Tokens with an end mark behind them. -/
def Marked (s : List ConditionToken) : Prop := ∃ ts e, s = ts ++ [e] ∧ e.kind = .ending

namespace Marked

theorem exists_cons (h : Marked s) : ∃ t s', s = t :: s' := by
  obtain ⟨ts, e, rfl, -⟩ := h
  exact List.exists_cons_of_ne_nil (by simp)

/-- No token but an end mark is the last one. -/
theorem tail (h : Marked (t :: s)) (ht : t.kind ≠ .ending) : Marked s := by
  obtain ⟨ts, e, hs, he⟩ := h
  cases ts with
  | nil =>
    cases hs
    exact absurd he ht
  | cons t' ts =>
    cases hs
    exact ⟨ts, e, rfl, he⟩

theorem of_append {used : List ConditionToken} (h : Marked (used ++ rest)) (hused : ∀ t ∈ used, t.kind ≠ .ending) :
    Marked rest := by
  induction used with
  | nil => exact h
  | cons t used ih =>
    obtain ⟨ht, hused⟩ := List.forall_mem_cons.mp hused
    exact ih (h.tail ht) hused

theorem append (h : Marked rest) (used : List ConditionToken) : Marked (used ++ rest) := by
  obtain ⟨ts, e, rfl, he⟩ := h
  exact ⟨used ++ ts, e, (List.append_assoc _ _ _).symm, he⟩

end Marked

/-- The tokens that a reader decides on: the next one, and behind a `not` one more, as the two may be one operator. -/
def ahead : List ConditionToken → List ConditionToken
  | t :: u :: _ => if t.Is .keyword "not" then [t, u] else [t]
  | s => s

theorem head?_ahead (s : List ConditionToken) : (ahead s).head? = s.head? := by
  rw [ahead.eq_def]
  split
  · split <;> rfl
  · rfl

/-- The next token is among those that are decided on. -/
theorem exists_cons_of_ahead {rest' : List ConditionToken} (h : ahead rest' = ahead (t :: rest)) :
    ∃ s, rest' = t :: s := by
  have hhead := congrArg List.head? h
  rw [head?_ahead, head?_ahead] at hhead
  exact List.head?_eq_some_iff.mp hhead

theorem ahead_append {rest' : List ConditionToken} (h : ahead rest' = ahead rest) (hrest : Marked rest)
    (used : List ConditionToken) : ahead (used ++ rest') = ahead (used ++ rest) := by
  obtain ⟨t, s, rfl⟩ := hrest.exists_cons
  obtain ⟨s', rfl⟩ := exists_cons_of_ahead h
  match used with
  | [] => exact h
  | [_] => rfl
  | _ :: _ :: _ => rfl

/-- What is decided on is decided on with anything behind it. -/
theorem ahead_ahead_append (hs : Marked s) (us : List ConditionToken) : ahead (ahead s ++ us) = ahead s := by
  obtain ⟨t, s, rfl⟩ := hs.exists_cons
  by_cases ht : t.Is .keyword "not"
  · obtain ⟨u, s, rfl⟩ := (hs.tail (by simp [ht.1])).exists_cons
    simp [ahead, ht]
  · have hahead (s : List ConditionToken) : ahead (t :: s) = [t] := by
      cases s with
      | nil => rfl
      | cons u s => exact if_neg ht
    rw [hahead, List.singleton_append, hahead]

/-- What a reader does with some tokens is settled by those that it takes and those it decides on. -/
structure LocalAt (m : ParseM α) (s : List ConditionToken) : Prop where
  ok {a rest} (h : m.run s = .ok (a, rest)) : Marked rest ∧ ∃ used, s = used ++ rest ∧
    ∀ rest', Marked rest' → ahead rest' = ahead rest → m.run (used ++ rest') = .ok (a, rest')
  error {e fault position} (h : m.run s = .error e) (hcause : e.cause = .condition fault position) :
    ∃ before t after, Marked (t :: after) ∧ s = before ++ t :: after ∧ position = t.offset ∧
      ∀ rest', Marked rest' → ahead rest' = ahead (t :: after) → m.run (before ++ rest') = .error e

/-- A reader that looks no further ahead on any tokens. -/
def Local (m : ParseM α) : Prop := ∀ s, Marked s → LocalAt m s

namespace LocalAt

/-- Readers that do the same are local in the same places. -/
theorem congr {m m' : ParseM α} (h : LocalAt m s) (hs : Marked s) (heq : ∀ s, Marked s → m'.run s = m.run s) :
    LocalAt m' s where
  ok hrun := by
    rw [heq s hs] at hrun
    obtain ⟨hrest, used, rfl, hsame⟩ := h.ok hrun
    exact ⟨hrest, used, rfl, fun rest' hrest' hahead =>
      (heq _ (hrest'.append used)).trans (hsame rest' hrest' hahead)⟩
  error hrun hcause := by
    rw [heq s hs] at hrun
    obtain ⟨before, t, after, hafter, rfl, hposition, hsame⟩ := h.error hrun hcause
    exact ⟨before, t, after, hafter, rfl, hposition, fun rest' hrest' hahead =>
      (heq _ (hrest'.append before)).trans (hsame rest' hrest' hahead)⟩

theorem bind {m : ParseM α} {f : α → ParseM β} (hm : LocalAt m s)
    (hf : ∀ a rest, m.run s = .ok (a, rest) → LocalAt (f a) rest) : LocalAt (m >>= f) s where
  ok hrun := by
    obtain ⟨a, s', hfirst, hsecond⟩ := run_bind_eq_ok.mp hrun
    obtain ⟨hs', used, rfl, hsame⟩ := hm.ok hfirst
    obtain ⟨hrest, used', rfl, hsame'⟩ := (hf a s' hfirst).ok hsecond
    refine ⟨hrest, used ++ used', (List.append_assoc _ _ _).symm, fun rest' hrest' hahead => ?_⟩
    rw [List.append_assoc, run_bind_of_ok (hsame _ (hrest'.append used') (ahead_append hahead hrest used'))]
    exact hsame' rest' hrest' hahead
  error {e fault position} hrun hcause := by
    rw [StateT.run_bind] at hrun
    cases hfirst : m.run s with
    | error e' =>
      rw [hfirst] at hrun
      cases hrun
      obtain ⟨before, t, after, hafter, rfl, hposition, hsame⟩ := hm.error hfirst hcause
      refine ⟨before, t, after, hafter, rfl, hposition, fun rest' hrest' hahead => ?_⟩
      rw [StateT.run_bind, hsame rest' hrest' hahead]
      rfl
    | ok found =>
      obtain ⟨a, s'⟩ := found
      rw [hfirst] at hrun
      obtain ⟨hs', used, rfl, hsame⟩ := hm.ok hfirst
      obtain ⟨before, t, after, hafter, rfl, hposition, hsame'⟩ := (hf a s' hfirst).error hrun hcause
      refine ⟨used ++ before, t, after, hafter, (List.append_assoc _ _ _).symm, hposition,
        fun rest' hrest' hahead => ?_⟩
      rw [List.append_assoc, run_bind_of_ok (hsame _ (hrest'.append before) (ahead_append hahead hafter before))]
      exact hsame' rest' hrest' hahead

end LocalAt

theorem Local.bind {m : ParseM α} {f : α → ParseM β} (hm : Local m) (hf : ∀ a, Local (f a)) : Local (m >>= f) :=
  fun s hs => (hm s hs).bind fun a rest h => hf a rest ((hm s hs).ok h).1

/-! ## Single steps -/

theorem local_pure (a : α) : Local (pure a : ParseM α) := fun s hs => {
  ok h := by
    obtain ⟨rfl, rfl⟩ := run_pure_eq_ok.mp h
    exact ⟨hs, [], rfl, fun _ _ _ => rfl⟩
  error := nofun }

theorem local_current : Local current := by
  intro s hs
  obtain ⟨t, s, rfl⟩ := hs.exists_cons
  refine ⟨fun h => ?_, nofun⟩
  cases h
  refine ⟨hs, [], rfl, fun rest' _ hahead => ?_⟩
  obtain ⟨s', rfl⟩ := exists_cons_of_ahead hahead
  rfl

theorem local_fail (fault : ConditionFault) : Local (fail fault : ParseM α) := by
  intro s hs
  obtain ⟨t, s, rfl⟩ := hs.exists_cons
  refine ⟨nofun, fun h hcause => ?_⟩
  cases h
  cases hcause
  refine ⟨[], t, s, hs, rfl, rfl, fun rest' _ hahead => ?_⟩
  obtain ⟨s', rfl⟩ := exists_cons_of_ahead hahead
  rfl

theorem local_accept (kind : ConditionToken.Kind) (text : String) (hkind : kind ≠ .ending) :
    Local (accept kind text) := by
  intro s hs
  obtain ⟨t, s, rfl⟩ := hs.exists_cons
  by_cases ht : t.Is kind text
  · refine ⟨fun h => ?_, fun h => ?_⟩ <;> rw [accept_run_cons, if_pos ht] at h <;> cases h
    refine ⟨hs.tail (ht.1 ▸ hkind), [t], rfl, fun rest' _ _ => ?_⟩
    rw [List.singleton_append, accept_run_cons, if_pos ht]
  · refine ⟨fun h => ?_, fun h => ?_⟩ <;> rw [accept_run_cons, if_neg ht] at h <;> cases h
    refine ⟨hs, [], rfl, fun rest' _ hahead => ?_⟩
    obtain ⟨s', rfl⟩ := exists_cons_of_ahead hahead
    rw [List.nil_append, accept_run_cons, if_neg ht]

/-- Where a token is asked for, the one that is next says how to go on. -/
theorem accept_branch_run (kind : ConditionToken.Kind) (text : String) (m m' : ParseM α) :
    (do if ← accept kind text then m else m' : ParseM α).run (t :: s) =
      if t.Is kind text then m.run s else m'.run (t :: s) := by
  have haccept := accept_run_cons (t := t) (s := s) kind text
  by_cases ht : t.Is kind text
  · rw [if_pos ht] at haccept ⊢
    rw [run_bind_of_ok haccept, if_pos rfl]
  · rw [if_neg ht] at haccept ⊢
    rw [run_bind_of_ok haccept, if_neg nofun]

/-- No operator starts with these tokens. -/
def Operatorless : List ConditionToken → Prop
  | t :: s => t.kind ≠ .operator ∧ ¬t.Is .keyword "in" ∧
    ∀ u ∈ s.head?, ¬(t.Is .keyword "not" ∧ u.Is .keyword "in")
  | [] => True

theorem operator?_run_of_operatorless (h : Operatorless s) : operator?.run s = .ok (none, s) := by
  match s with
  | [] => rfl
  | [t] =>
    rw [operator?_run_cons, if_neg h.1, if_neg h.2.1]
  | t :: u :: s =>
    rw [operator?_run_cons, if_neg h.1, if_neg h.2.1]
    exact if_neg (h.2.2 u rfl)

/-- Whether an operator starts here is among what is decided on. -/
theorem Operatorless.of_ahead {rest' : List ConditionToken} (h : Operatorless (t :: s))
    (hahead : ahead rest' = ahead (t :: s)) : Operatorless rest' := by
  obtain ⟨s', rfl⟩ := exists_cons_of_ahead hahead
  refine ⟨h.1, h.2.1, fun u hu hnot => h.2.2 u ?_ hnot⟩
  obtain ⟨s', rfl⟩ := List.head?_eq_some_iff.mp hu
  rw [ahead, if_pos hnot.1] at hahead
  cases s with
  | nil => cases hahead
  | cons v s =>
    rw [ahead, if_pos hnot.1] at hahead
    cases hahead
    rfl

/-- Looking for an operator takes one, with the same answer whatever follows it, or there is none. -/
theorem operator?_run_cases (s : List ConditionToken) : Operatorless s ∨
    ∃ os rest found, s = os ++ rest ∧ (∀ t ∈ os, t.kind ≠ .ending) ∧
      ∀ rest', operator?.run (os ++ rest') = .ok (found, rest') := by
  cases s with
  | nil => exact .inl trivial
  | cons t s =>
    by_cases hoperator : t.kind = .operator
    · refine .inr ⟨[t], s, Comparison.ofSymbol? t.text, rfl, by simp [hoperator], fun rest' => ?_⟩
      rw [List.singleton_append, operator?_run_cons, if_pos hoperator]
    by_cases hin : t.Is .keyword "in"
    · refine .inr ⟨[t], s, some .isIn, rfl, by simp [hin.1], fun rest' => ?_⟩
      rw [List.singleton_append, operator?_run_cons, if_neg hoperator, if_pos hin]
    by_cases hnotIn : ∃ u ∈ s.head?, t.Is .keyword "not" ∧ u.Is .keyword "in"
    · obtain ⟨u, hu, hnot⟩ := hnotIn
      obtain ⟨s, rfl⟩ := List.head?_eq_some_iff.mp hu
      refine .inr ⟨[t, u], s, some .isNotIn, rfl, by simp [hnot.1.1, hnot.2.1], fun rest' => ?_⟩
      rw [List.cons_append, List.singleton_append, operator?_run_cons, if_neg hoperator, if_neg hin]
      exact if_pos hnot
    · exact .inl ⟨hoperator, hin, fun u hu hnot => hnotIn ⟨u, hu, hnot⟩⟩

theorem operator?_run_ne_error (s : List ConditionToken) (e : CompileError) : operator?.run s ≠ .error e := by
  intro h
  obtain hnone | ⟨os, rest, found, rfl, -, hrun⟩ := operator?_run_cases s
  · rw [operator?_run_of_operatorless hnone] at h
    cases h
  · rw [hrun] at h
    cases h

theorem local_operator? : Local operator? := by
  intro s hs
  refine ⟨fun h => ?_, fun h => absurd h (operator?_run_ne_error s _)⟩
  obtain hnone | ⟨os, rest, found, rfl, hos, hrun⟩ := operator?_run_cases s
  · rw [operator?_run_of_operatorless hnone] at h
    cases h
    refine ⟨hs, [], rfl, fun rest' _ hahead => ?_⟩
    obtain ⟨t, s, rfl⟩ := hs.exists_cons
    exact operator?_run_of_operatorless (hnone.of_ahead hahead)
  · rw [hrun] at h
    cases h
    exact ⟨hs.of_append hos, os, rfl, fun rest' _ _ => hrun rest'⟩

section Chain

variable {keyword : String} {join : Condition → Condition → Condition} {part : ParseM Condition} (hpart : Local part)
include hpart

/-- A bound that leaves room for all tokens is as good as any other. -/
theorem chainFrom_run_bound {n m : Nat} (hs : Marked s) (hn : s.length ≤ n) (hm : s.length ≤ m) (left : Condition) :
    (chainFrom keyword join part n left).run s = (chainFrom keyword join part m left).run s := by
  induction n generalizing m s left with
  | zero =>
    obtain ⟨t, s, rfl⟩ := hs.exists_cons
    cases hn
  | succ n ih =>
    obtain ⟨t, s, rfl⟩ := hs.exists_cons
    cases m with
    | zero => cases hm
    | succ m =>
      rw [chainFrom, chainFrom, accept_branch_run, accept_branch_run]
      by_cases ht : t.Is .keyword keyword
      · have hs' : Marked s := hs.tail (by simp [ht.1])
        rw [if_pos ht, if_pos ht]
        cases hrun : part.run s with
        | error e =>
          rw [StateT.run_bind, StateT.run_bind, hrun]
          rfl
        | ok found =>
          obtain ⟨right, rest⟩ := found
          obtain ⟨hrest, used, rfl, -⟩ := (hpart s hs').ok hrun
          rw [run_bind_of_ok hrun, run_bind_of_ok hrun]
          simp only [List.length_cons, List.length_append] at hn hm
          exact ih hrest (by omega) (by omega) _
      · rw [if_neg ht, if_neg ht]

omit hpart in
/-- The further parts of a chain, as many as there are. -/
def chainOn (keyword : String) (join : Condition → Condition → Condition) (part : ParseM Condition)
    (left : Condition) : ParseM Condition := do
  chainFrom keyword join part (← get).length left

/-- The further parts of a chain are none, or one and the further parts behind it. -/
theorem chainOn_run (hs : Marked s) (left : Condition) :
    (chainOn keyword join part left).run s = (do
      if ← accept .keyword keyword then
        let right ← part
        chainOn keyword join part (join left right)
      else return left : ParseM Condition).run s := by
  obtain ⟨t, s, rfl⟩ := hs.exists_cons
  change (chainFrom keyword join part (s.length + 1) left).run (t :: s) = _
  rw [chainFrom, accept_branch_run, accept_branch_run]
  by_cases ht : t.Is .keyword keyword
  · have hs' : Marked s := hs.tail (by simp [ht.1])
    rw [if_pos ht, if_pos ht, StateT.run_bind, StateT.run_bind]
    cases hrun : part.run s with
    | error e => rfl
    | ok found =>
      obtain ⟨right, rest⟩ := found
      obtain ⟨hrest, used, rfl, -⟩ := (hpart s hs').ok hrun
      exact chainFrom_run_bound hpart hrest (by simp) (Nat.le_refl _) (join left right)
  · rw [if_neg ht, if_neg ht]

theorem local_chainOn (left : Condition) : Local (chainOn keyword join part left) := by
  intro s hs
  induction hn : s.length using Nat.strongRecOn generalizing s left with
  | _ n ih =>
    refine .congr (.bind (local_accept .keyword keyword nofun s hs) fun taken rest haccept => ?_) hs
      fun s hs => chainOn_run hpart hs left
    have hrest := ((local_accept .keyword keyword nofun s hs).ok haccept).1
    obtain ⟨rfl, t, ht, rfl⟩ | ⟨rfl, rfl⟩ := accept_run_eq_ok haccept nofun
    · -- the keyword is taken, so there are fewer tokens for the parts behind this one
      refine (hpart rest hrest).bind fun right rest' hright => ?_
      obtain ⟨hrest', used, rfl, -⟩ := (hpart rest hrest).ok hright
      refine ih rest'.length ?_ (join left right) rest' hrest' rfl
      simp only [← hn, List.length_cons, List.length_append]
      omega
    · exact local_pure left _ hs

theorem local_chain : Local (chain keyword join part) := hpart.bind fun left => local_chainOn hpart left

theorem local_disjunction : Local (disjunction part) := local_chain (local_chain hpart)

end Chain

/-! ## Negations -/

theorem operand_run_of_ne (ht : t.kind ≠ .operand) (fault : ConditionFault) :
    (operand compile fault).run (t :: s) = .error (.ofCause (.condition fault t.offset)) := by
  rw [operand, run_bind_of_ok (current_run_cons t s), if_neg (by simpa using ht)]
  rfl

variable (hcompile : ∀ text, FailsWith CompileError.OffCondition (compile text))
include hcompile

theorem local_operand (fault : ConditionFault) : Local (operand compile fault) := by
  intro s hs
  obtain ⟨t, s, rfl⟩ := hs.exists_cons
  by_cases ht : t.kind = .operand
  · cases hc : compile t.text with
    | error e =>
      refine ⟨fun h => ?_, fun h hcause => ?_⟩ <;> rw [operand_run_cons ht, hc] at h <;> cases h
      exact absurd hcause (hcompile t.text e hc _ _)
    | ok expression =>
      refine ⟨fun h => ?_, fun h => ?_⟩ <;> rw [operand_run_cons ht, hc] at h <;> cases h
      refine ⟨hs.tail (by simp [ht]), [t], rfl, fun rest' _ _ => ?_⟩
      rw [List.singleton_append, operand_run_cons ht, hc]
      rfl
  · refine ⟨fun h => ?_, fun h hcause => ?_⟩ <;> rw [operand_run_of_ne ht] at h <;> cases h
    cases hcause
    refine ⟨[], t, s, hs, rfl, rfl, fun rest' _ hahead => ?_⟩
    obtain ⟨s', rfl⟩ := exists_cons_of_ahead hahead
    exact operand_run_of_ne ht fault

theorem local_primary {inside : ParseM Condition} (hinside : Local inside) : Local (primary compile inside) := by
  refine (local_accept _ _ (by decide)).bind fun opened => ?_
  split
  · refine hinside.bind fun c => (local_accept _ _ (by decide)).bind fun closed => ?_
    split
    · exact local_pure _
    · exact local_fail _
  · refine local_current.bind fun t => ?_
    split
    · exact (local_operand hcompile _).bind fun e => local_pure _
    · exact local_fail _
    · exact local_fail _

theorem local_comparison {inside : ParseM Condition} (hinside : Local inside) :
    Local (comparison compile inside) := by
  refine (local_primary hcompile hinside).bind fun left => local_operator?.bind fun found => ?_
  split
  · exact local_pure _
  · split
    · exact (local_operand hcompile _).bind fun e => local_pure _
    · exact local_fail _

theorem local_negation (depth : Nat) : Local (negation compile depth) := by
  induction depth with
  | zero =>
    refine (local_accept _ _ (by decide)).bind fun negated => ?_
    split
    · exact local_fail _
    · exact local_comparison hcompile (local_fail _)
  | succ depth ih =>
    refine (local_accept _ _ (by decide)).bind fun negated => ?_
    split
    · exact ih.bind fun c => local_pure _
    · exact local_comparison hcompile (local_disjunction ih)

end Condition.Parse

end TextTemplate
