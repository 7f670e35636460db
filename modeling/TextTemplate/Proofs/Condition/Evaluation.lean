import TextTemplate.Proofs.Node.Watch

/-!
# What the truth of a condition takes

The evaluation of a condition as a relation, with a trace: the operands that are resolved, each with the state it is
resolved in and what came of it. An operand can call functions of the host, which may fail, change data or answer
differently the next time, so the trace says more than the answer does. There is one rule for each way in which a part
of a condition can decide, or fail to decide, the whole.

Evaluation has exactly one trace, and its journal is that of the resolutions in the trace.
-/

namespace TextTemplate

abbrev RenderOutcome (α : Type) := EStateM.Result RenderError RenderState α

/-- What comes of resolving an operand of a condition: one that is missing counts as `none`. A failure in the filters
is a failure of the operand, also if the argument of a filter is missing. -/
inductive Resolves (e : Expression) (s : RenderState) : RenderOutcome Value → Prop
  | found {v s'} (resolved : e.operand.resolve s = .ok v s') : Resolves e s (FilterCall.applyAll e.calls v s')
  | missing {path segment s'} (lost : e.operand.resolve s = .error (.missing path segment) s') :
    Resolves e s (FilterCall.applyAll e.calls .none s')
  | failed {failure s'} (failed : e.operand.resolve s = .error failure s')
    (present : ∀ path segment, failure ≠ .missing path segment) : Resolves e s (.error failure s')

theorem Expression.resolves (e : Expression) (s : RenderState) : Resolves e s (e.resolve .ignore s) := by
  rw [resolve]
  cases h : e.operand.resolve s with
  | ok v s' => exact .found h
  | error failure s' =>
    cases failure with
    | missing path segment => exact .missing h
    | _ => exact .failed h (by rintro _ _ ⟨⟩)

theorem Resolves.eq {e : Expression} {s : RenderState} {r : RenderOutcome Value} (h : Resolves e s r) :
    e.resolve .ignore s = r := by
  rw [Expression.resolve]
  cases h with
  | found h => rw [h]
  | missing h => rw [h]
  | failed h present =>
    rw [h]
    split
    · cases ‹_ = _›
    · cases ‹_ = _›
      exact absurd rfl (present _ _)
    · cases ‹_ = _›
      rfl

/-- A resolution of an operand. -/
structure Resolution where
  expression : Expression
  before : RenderState
  outcome : RenderOutcome Value

namespace Resolution

/-- The resolution that takes place in a state. -/
def ofState (e : Expression) (s : RenderState) : Resolution := ⟨e, s, e.resolve .ignore s⟩

/-- What the resolution asks of the data. -/
def entries (r : Resolution) : List RenderEntry := (r.expression.watch .ignore).entries r.before

def Succeeds (r : Resolution) : Prop := ∃ v s, r.outcome = .ok v s

end Resolution

/-- The evaluation of a condition from a state: the resolutions it takes, in order, and its outcome. -/
inductive Evaluates : Condition → RenderState → List Resolution → RenderOutcome Bool → Prop
  | operand {e s v s'} (resolved : Resolves e s (.ok v s')) :
    Evaluates (.operand e) s [⟨e, s, .ok v s'⟩] (.ok (v.isTrue s'.store) s')
  | operandFails {e s failure s'} (failed : Resolves e s (.error failure s')) :
    Evaluates (.operand e) s [⟨e, s, .error failure s'⟩] (.error failure s')
  | comparison {left op right s a s₁ b s₂ holds st} (first : Resolves left s (.ok a s₁))
    (second : Resolves right s₁ (.ok b s₂)) (compared : op.test a b s₂.store = .ok holds st) :
    Evaluates (.comparison left op right) s [⟨left, s, .ok a s₁⟩, ⟨right, s₁, .ok b s₂⟩]
      (.ok holds { s₂ with store := st })
  | incomparable {left op right s a s₁ b s₂ st} (first : Resolves left s (.ok a s₁))
    (second : Resolves right s₁ (.ok b s₂)) (failed : op.test a b s₂.store = .error .unsupportedKind st) :
    Evaluates (.comparison left op right) s [⟨left, s, .ok a s₁⟩, ⟨right, s₁, .ok b s₂⟩]
      (.ok false { s₂ with store := st })
  | leftFails {left op right s failure s'} (failed : Resolves left s (.error failure s')) :
    Evaluates (.comparison left op right) s [⟨left, s, .error failure s'⟩] (.error failure s')
  | rightFails {left op right s a s₁ failure s'} (first : Resolves left s (.ok a s₁))
    (failed : Resolves right s₁ (.error failure s')) :
    Evaluates (.comparison left op right) s [⟨left, s, .ok a s₁⟩, ⟨right, s₁, .error failure s'⟩] (.error failure s')
  | group {inside s trace r} (within : Evaluates inside s trace r) : Evaluates (.group inside) s trace r
  | not {inside s trace b s'} (within : Evaluates inside s trace (.ok b s')) :
    Evaluates (.not inside) s trace (.ok (!b) s')
  | notFails {inside s trace failure s'} (within : Evaluates inside s trace (.error failure s')) :
    Evaluates (.not inside) s trace (.error failure s')
  | andTrue {left right s trace s₁ trace' r} (first : Evaluates left s trace (.ok true s₁))
    (second : Evaluates right s₁ trace' r) : Evaluates (.and left right) s (trace ++ trace') r
  | andFalse {left right s trace s'} (first : Evaluates left s trace (.ok false s')) :
    Evaluates (.and left right) s trace (.ok false s')
  | andFails {left right s trace failure s'} (first : Evaluates left s trace (.error failure s')) :
    Evaluates (.and left right) s trace (.error failure s')
  | orTrue {left right s trace s'} (first : Evaluates left s trace (.ok true s')) :
    Evaluates (.or left right) s trace (.ok true s')
  | orFalse {left right s trace s₁ trace' r} (first : Evaluates left s trace (.ok false s₁))
    (second : Evaluates right s₁ trace' r) : Evaluates (.or left right) s (trace ++ trace') r
  | orFails {left right s trace failure s'} (first : Evaluates left s trace (.error failure s')) :
    Evaluates (.or left right) s trace (.error failure s')

/-! ## Comparisons fail in one way -/

/-- The computation fails only on values of a kind that it does not support. -/
def OnlyRefuses {α : Type} (m : EvalM α) : Prop :=
  ∀ st failure st', m st = .error failure st' → failure = .unsupportedKind

namespace OnlyRefuses

variable {α β : Type}

theorem pure (a : α) : OnlyRefuses (pure a : EvalM α) := by
  rintro st failure st' ⟨⟩

theorem throw : OnlyRefuses (throw .unsupportedKind : EvalM α) := by
  rintro st failure st' ⟨⟩
  rfl

theorem bind {m : EvalM α} {f : α → EvalM β} (hm : OnlyRefuses m) (hf : ∀ a, OnlyRefuses (f a)) :
    OnlyRefuses (m >>= f) := by
  intro st failure st' h
  rw [run_bind] at h
  cases hfirst : m st with
  | ok a middle =>
    rw [hfirst] at h
    exact hf a middle failure st' h
  | error first middle =>
    rw [hfirst] at h
    cases h
    exact hm st failure st' hfirst

theorem get : OnlyRefuses (get : EvalM Store) := by
  rintro st failure st' ⟨⟩

theorem modify (f : Store → Store) : OnlyRefuses (modify f : EvalM Unit) := by
  rintro st failure st' ⟨⟩

theorem ofComparison (answer : Option Bool) : OnlyRefuses (EvalM.ofComparison answer) := by
  cases answer with
  | none => exact .throw
  | some b => exact .pure b

theorem isIn (x container : Value) : OnlyRefuses (x.isIn container) := by
  refine .bind .get fun st => ?_
  dsimp only
  split
  · split
    · exact .pure _
    · exact .throw
  · exact .ofComparison _
  · exact .ofComparison _
  · split
    · exact .pure _
    · exact .throw
  · exact .bind (.modify _) fun _ => .ofComparison _
  · exact .ofComparison _
  · exact .ofComparison _

theorem test (op : Comparison) (a b : Value) : OnlyRefuses (op.test a b) := by
  have hequal : OnlyRefuses (a.isEqual b) := .bind .get fun _ => .ofComparison _
  have hrelated (r : Value.Relation) : OnlyRefuses (a.isRelated r b) := .bind .get fun _ => .ofComparison _
  cases op with
  | equal => exact hequal
  | unequal => exact hequal.bind fun _ => .pure _
  | less | greater | atMost | atLeast => exact hrelated _
  | isIn => exact .isIn a b
  | isNotIn => exact (OnlyRefuses.isIn a b).bind fun _ => .pure _

end OnlyRefuses

/-! ## The trace -/

namespace Condition

/-- The operands of a condition, from left to right. -/
def operands : Condition → List Expression
  | operand e => [e]
  | comparison left _ right => [left, right]
  | group inside => inside.operands
  | not inside => inside.operands
  | and left right => left.operands ++ right.operands
  | or left right => left.operands ++ right.operands

/-- The resolutions that evaluation takes. -/
def trace : Condition → RenderState → List Resolution
  | operand e, s => [.ofState e s]
  | comparison left _ right, s =>
    .ofState left s :: match left.resolve .ignore s with
      | .ok _ s' => [.ofState right s']
      | .error _ _ => []
  | group inside, s => inside.trace s
  | not inside, s => inside.trace s
  | and left right, s =>
    left.trace s ++ match left.eval s with
      | .ok true s' => right.trace s'
      | _ => []
  | or left right, s =>
    left.trace s ++ match left.eval s with
      | .ok false s' => right.trace s'
      | _ => []

theorem eval_operand (e : Expression) (s : RenderState) : (operand e).eval s = match e.resolve .ignore s with
    | .ok v s' => .ok (v.isTrue s'.store) s'
    | .error failure s' => .error failure s' := by
  rw [eval, run_bind]
  cases e.resolve .ignore s <;> rfl

theorem eval_comparison (a : Expression) (op : Comparison) (b : Expression) (s : RenderState) :
    (comparison a op b).eval s = match a.resolve .ignore s with
      | .ok v s₁ => match b.resolve .ignore s₁ with
        | .ok w s₂ => RenderM.onValues (op.holds v w) s₂
        | .error failure s' => .error failure s'
      | .error failure s' => .error failure s' := by
  rw [eval, run_bind]
  cases a.resolve .ignore s with
  | error failure s' => rfl
  | ok v s₁ =>
    dsimp only
    rw [run_bind]
    cases b.resolve .ignore s₁ <;> rfl

theorem eval_not (c : Condition) (s : RenderState) : (not c).eval s = match c.eval s with
    | .ok b s' => .ok (!b) s'
    | .error failure s' => .error failure s' := by
  rw [eval, run_bind]
  cases c.eval s <;> rfl

theorem eval_and (left right : Condition) (s : RenderState) : (and left right).eval s = match left.eval s with
    | .ok true s' => right.eval s'
    | .ok false s' => .ok false s'
    | .error failure s' => .error failure s' := by
  rw [eval, run_bind]
  rcases left.eval s with ⟨_ | _, s'⟩ | ⟨failure, s'⟩ <;> rfl

theorem eval_or (left right : Condition) (s : RenderState) : (or left right).eval s = match left.eval s with
    | .ok true s' => .ok true s'
    | .ok false s' => right.eval s'
    | .error failure s' => .error failure s' := by
  rw [eval, run_bind]
  rcases left.eval s with ⟨_ | _, s'⟩ | ⟨failure, s'⟩ <;> rfl

end Condition

namespace Evaluates

variable {c : Condition} {s : RenderState} {trace : List Resolution} {r : RenderOutcome Bool}

/-- The rules leave no choice. -/
theorem eq (h : Evaluates c s trace r) : trace = c.trace s ∧ c.eval s = r := by
  induction h with
  | operand h =>
    rw [Condition.trace, Resolution.ofState, Condition.eval_operand, h.eq]
    exact ⟨rfl, rfl⟩
  | operandFails h =>
    rw [Condition.trace, Resolution.ofState, Condition.eval_operand, h.eq]
    exact ⟨rfl, rfl⟩
  | comparison first second compared =>
    rw [Condition.trace, Resolution.ofState, Condition.eval_comparison, first.eq]
    dsimp only
    rw [Resolution.ofState, second.eq]
    dsimp only
    rw [RenderM.onValues, Comparison.holds, compared]
    exact ⟨rfl, rfl⟩
  | incomparable first second failed =>
    rw [Condition.trace, Resolution.ofState, Condition.eval_comparison, first.eq]
    dsimp only
    rw [Resolution.ofState, second.eq]
    dsimp only
    rw [RenderM.onValues, Comparison.holds, failed]
    exact ⟨rfl, rfl⟩
  | leftFails h =>
    rw [Condition.trace, Resolution.ofState, Condition.eval_comparison, h.eq]
    exact ⟨rfl, rfl⟩
  | rightFails first h =>
    rw [Condition.trace, Resolution.ofState, Condition.eval_comparison, first.eq]
    dsimp only
    rw [Resolution.ofState, h.eq]
    exact ⟨rfl, rfl⟩
  | group _ ih => exact ih
  | not _ ih | notFails _ ih => exact ⟨ih.1, by rw [Condition.eval_not, ih.2]⟩
  | andTrue _ _ ihfirst ihsecond =>
    rw [Condition.trace, Condition.eval_and, ihfirst.2, ← ihfirst.1]
    exact ⟨congrArg _ ihsecond.1, ihsecond.2⟩
  | andFalse _ ih | andFails _ ih =>
    rw [Condition.trace, Condition.eval_and, ih.2, ← ih.1, List.append_nil]
    exact ⟨rfl, rfl⟩
  | orFalse _ _ ihfirst ihsecond =>
    rw [Condition.trace, Condition.eval_or, ihfirst.2, ← ihfirst.1]
    exact ⟨congrArg _ ihsecond.1, ihsecond.2⟩
  | orTrue _ ih | orFails _ ih =>
    rw [Condition.trace, Condition.eval_or, ih.2, ← ih.1, List.append_nil]
    exact ⟨rfl, rfl⟩

end Evaluates

/-- An evaluation fails exactly where a resolution does, and then at once. -/
inductive Concludes : List Resolution → RenderOutcome Bool → Prop
  | decided {trace b s} (all : ∀ r ∈ trace, r.Succeeds) : Concludes trace (.ok b s)
  | failed {before last failure s} (all : ∀ r ∈ before, r.Succeeds) (fails : last.outcome = .error failure s) :
    Concludes (before ++ [last]) (.error failure s)

theorem Concludes.succeed {trace : List Resolution} {b : Bool} {s : RenderState} (h : Concludes trace (.ok b s)) :
    ∀ r ∈ trace, r.Succeeds := by
  cases h with
  | decided all => exact all

theorem Concludes.append {trace trace' : List Resolution} {b : Bool} {s : RenderState} {r : RenderOutcome Bool}
    (h : Concludes trace (.ok b s)) (h' : Concludes trace' r) : Concludes (trace ++ trace') r := by
  cases h' with
  | decided all => exact .decided (List.forall_mem_append.mpr ⟨h.succeed, all⟩)
  | failed all fails =>
    rw [← List.append_assoc]
    exact .failed (List.forall_mem_append.mpr ⟨h.succeed, all⟩) fails

end TextTemplate
