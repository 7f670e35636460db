import TextTemplate.Proofs.Condition.Evaluation
import TextTemplate.Proofs.Condition.Printing

/-!
# The height of conditions

Evaluation and writing back call themselves on the parts of a condition, so as many calls are open at once as the
tree is high. Groups and `not`s are limited when a condition is read; chains of `and` and of `or` are not, and lean to
the left with one level for each part.

A part of a chain holds no looser chain but inside a group. So on a way down the tree there are two chains at most, one
of `or` and one of `and`, between two groups or `not`s. That bounds the height by the length of the longest chain.
-/

namespace TextTemplate.Condition

variable {compile : OperandCompiler} {text : String} {c : Condition} {s : RenderState} {room : Nat}

/-- The conditions on the longest way down. -/
def height : Condition → Nat
  | operand _ => 1
  | comparison _ _ _ => 1
  | group inside => inside.height + 1
  | not inside => inside.height + 1
  | and left right => max left.height right.height + 1
  | or left right => max left.height right.height + 1

/-- The operators of the chain of `and` at the top. -/
def andCount : Condition → Nat
  | and left _ => left.andCount + 1
  | _ => 0

/-- The operators of the chain of `or` at the top. -/
def orCount : Condition → Nat
  | or left _ => left.orCount + 1
  | _ => 0

/-- The operators of the longest chain. -/
def longestChain : Condition → Nat
  | operand _ => 0
  | comparison _ _ _ => 0
  | group inside => inside.longestChain
  | not inside => inside.longestChain
  | and left right => max (left.andCount + 1) (max left.longestChain right.longestChain)
  | or left right => max (left.orCount + 1) (max left.longestChain right.longestChain)

/-- No chain at the top is longer than the longest one. -/
theorem andCount_le (c : Condition) : c.andCount ≤ c.longestChain := by
  cases c with
  | and left right => exact Nat.le_max_left _ _
  | _ => exact Nat.zero_le _

theorem orCount_le (c : Condition) : c.orCount ≤ c.longestChain := by
  cases c with
  | or left right => exact Nat.le_max_left _ _
  | _ => exact Nat.zero_le _

/-! ## Calls that are open at once -/

/-- The truth of a condition, if no more than so many evaluations have to be open at once. -/
def evalWithin : (room : Nat) → Condition → RenderState → Option (RenderOutcome Bool)
  | 0, _, _ => none
  | _ + 1, operand e, s => some ((operand e).eval s)
  | _ + 1, comparison left op right, s => some ((comparison left op right).eval s)
  | room + 1, group inside, s => inside.evalWithin room s
  | room + 1, not inside, s => (inside.evalWithin room s).map fun
    | .ok b s' => .ok (!b) s'
    | .error failure s' => .error failure s'
  | room + 1, and left right, s => (left.evalWithin room s).bind fun
    | .ok true s' => right.evalWithin room s'
    | .ok false s' => some (.ok false s')
    | .error failure s' => some (.error failure s')
  | room + 1, or left right, s => (left.evalWithin room s).bind fun
    | .ok true s' => some (.ok true s')
    | .ok false s' => right.evalWithin room s'
    | .error failure s' => some (.error failure s')

/-- The text of a condition, if no more than so many calls have to be open at once. -/
def shownWithin : (room : Nat) → Condition → Option String
  | 0, _ => none
  | _ + 1, operand e => some (operand e).shown
  | _ + 1, comparison left op right => some (comparison left op right).shown
  | room + 1, group inside => return "(" ++ (← inside.shownWithin room) ++ ")"
  | room + 1, not inside => return "not " ++ (← inside.shownWithin room)
  | room + 1, and left right => return (← left.shownWithin room) ++ " and " ++ (← right.shownWithin room)
  | room + 1, or left right => return (← left.shownWithin room) ++ " or " ++ (← right.shownWithin room)

theorem height_pos (c : Condition) : 0 < c.height := by
  cases c <;> exact Nat.succ_pos _

/-- No more evaluations are open at once than the condition is high. -/
theorem evalWithin_of_height_le (h : c.height ≤ room) (s : RenderState) : c.evalWithin room s = some (c.eval s) := by
  induction room generalizing c s with
  | zero => exact absurd h (Nat.not_le_of_lt c.height_pos)
  | succ room ih =>
    cases c with
    | operand | comparison => rfl
    | group inside => exact ih (Nat.le_of_succ_le_succ h) s
    | not inside =>
      rw [evalWithin, ih (Nat.le_of_succ_le_succ h), eval_not]
      cases inside.eval s <;> rfl
    | and left right =>
      obtain ⟨hleft, hright⟩ := Nat.max_le.mp (Nat.le_of_succ_le_succ h)
      rw [evalWithin, ih hleft, eval_and]
      rcases left.eval s with ⟨_ | _, s'⟩ | ⟨failure, s'⟩
      · rfl
      · exact ih hright s'
      · rfl
    | or left right =>
      obtain ⟨hleft, hright⟩ := Nat.max_le.mp (Nat.le_of_succ_le_succ h)
      rw [evalWithin, ih hleft, eval_or]
      rcases left.eval s with ⟨_ | _, s'⟩ | ⟨failure, s'⟩
      · exact ih hright s'
      · rfl
      · rfl

theorem shownWithin_of_height_le (h : c.height ≤ room) : c.shownWithin room = some c.shown := by
  induction room generalizing c with
  | zero => exact absurd h (Nat.not_le_of_lt c.height_pos)
  | succ room ih =>
    cases c with
    | operand | comparison => rfl
    | group inside | not inside =>
      rw [shownWithin, ih (Nat.le_of_succ_le_succ h)]
      rfl
    | and left right | or left right =>
      obtain ⟨hleft, hright⟩ := Nat.max_le.mp (Nat.le_of_succ_le_succ h)
      rw [shownWithin, ih hleft, ih hright]
      rfl

/-! ## Heights of conditions that are read -/

open TextTemplate.Condition.Grammar

/-- The height of a part of a chain with so many groups and `not`s open at once, where no chain is longer than `m`. -/
def partHeight (m depth : Nat) : Nat := 1 + depth * (2 * m + 1)

theorem partHeight_succ (m depth : Nat) : partHeight m (depth + 1) = partHeight m depth + (2 * m + 1) := by
  rw [partHeight, partHeight, Nat.succ_mul]
  omega

theorem partHeight_mono (m : Nat) {d d' : Nat} (h : d ≤ d') : partHeight m d ≤ partHeight m d' :=
  Nat.add_le_add_left (Nat.mul_le_mul_right _ h) 1

/-- How high a nonterminal can be above the parts of its chains. -/
def chainHeight (m : Nat) (c : Condition) : Nonterminal → Nat
  | .orExpr => c.orCount + m
  | .andExpr => c.andCount
  | .notExpr => 0
  | .comparison => 0

/-- The height of what is derived, with the chains at the top counted for themselves. -/
theorem height_le_of_derives {n : Nonterminal} {ts : List ConditionToken} {p : Phrase} (h : Derives n ts p)
    (hcompiled : p.compiled compile = .ok c) {m : Nat} (hm : c.longestChain ≤ m) :
    c.height ≤ chainHeight m c n + partHeight m p.nesting := by
  induction h generalizing c with
  | orFirst _ ih =>
    have hpart := ih hcompiled hm
    have hand := c.andCount_le
    simp only [chainHeight] at hpart ⊢
    omega
  | andFirst _ ih | positive _ ih =>
    have hpart := ih hcompiled hm
    simp only [chainHeight] at hpart ⊢
    omega
  | @orNext ts us k p q _ _ _ ih ih' =>
    obtain ⟨left, hleft, hcompiled⟩ := bind_eq_ok_iff.mp hcompiled
    obtain ⟨right, hright, hcompiled⟩ := bind_eq_ok_iff.mp hcompiled
    cases hcompiled
    simp only [longestChain, Nat.max_le] at hm
    have hbefore := ih hleft hm.2.1
    have hpart := ih' hright hm.2.2
    have hand := right.andCount_le
    have hp := partHeight_mono m (Nat.le_max_left p.nesting q.nesting)
    have hq := partHeight_mono m (Nat.le_max_right p.nesting q.nesting)
    simp only [chainHeight, height, orCount, Phrase.nesting] at hbefore hpart ⊢
    omega
  | @andNext ts us k p q _ _ _ ih ih' =>
    obtain ⟨left, hleft, hcompiled⟩ := bind_eq_ok_iff.mp hcompiled
    obtain ⟨right, hright, hcompiled⟩ := bind_eq_ok_iff.mp hcompiled
    cases hcompiled
    simp only [longestChain, Nat.max_le] at hm
    have hbefore := ih hleft hm.2.1
    have hpart := ih' hright hm.2.2
    have hp := partHeight_mono m (Nat.le_max_left p.nesting q.nesting)
    have hq := partHeight_mono m (Nat.le_max_right p.nesting q.nesting)
    simp only [chainHeight, height, andCount, Phrase.nesting] at hbefore hpart ⊢
    omega
  | not _ _ ih =>
    obtain ⟨inside, hinside, hcompiled⟩ := bind_eq_ok_iff.mp hcompiled
    cases hcompiled
    have hpart := ih hinside hm
    simp only [chainHeight, height, Phrase.nesting, partHeight_succ] at hpart ⊢
    omega
  | compared =>
    obtain ⟨left, hleft, hcompiled⟩ := bind_eq_ok_iff.mp hcompiled
    obtain ⟨right, hright, hcompiled⟩ := bind_eq_ok_iff.mp hcompiled
    cases hcompiled
    simp only [height, partHeight]
    omega
  | operand =>
    obtain ⟨e, he, hcompiled⟩ := bind_eq_ok_iff.mp hcompiled
    cases hcompiled
    simp only [height, partHeight]
    omega
  | group _ _ _ ih =>
    obtain ⟨inside, hinside, hcompiled⟩ := bind_eq_ok_iff.mp hcompiled
    cases hcompiled
    have hpart := ih hinside hm
    have hor := inside.orCount_le
    rw [longestChain] at hm
    simp only [chainHeight, height, Phrase.nesting, partHeight_succ] at hpart ⊢
    omega

/-- The height of a condition that was read, by the number of groups and `not`s that may be open at once and the length
of its longest chain. Evaluation and writing back need no more calls open at once. -/
theorem height_le (h : parse compile text = .ok c) :
    c.height ≤ (maxDepth + 1) * (2 * c.longestChain + 1) ∧
      ∀ room, (maxDepth + 1) * (2 * c.longestChain + 1) ≤ room →
        (∀ s, c.evalWithin room s = some (c.eval s)) ∧ c.shownWithin room = some c.shown := by
  obtain ⟨ts, p, -, ⟨hderives, hnesting⟩, hcompiled⟩ := parse_eq_ok_iff.mp h
  have hheight : c.height ≤ (maxDepth + 1) * (2 * c.longestChain + 1) := by
    have hderived := height_le_of_derives hderives hcompiled (Nat.le_refl _)
    have hor := c.orCount_le
    have hdepth := partHeight_mono c.longestChain hnesting
    rw [Nat.succ_mul]
    simp only [chainHeight, partHeight] at hderived hdepth
    omega
  exact ⟨hheight, fun room hroom =>
    ⟨evalWithin_of_height_le (hheight.trans hroom), shownWithin_of_height_le (hheight.trans hroom)⟩⟩

/-- Groups and `not`s in two chains, one inside the other. -/
theorem height_le_chains : ∃ c, parse compileUnfiltered "a or b or not (c and d and e and f) or g" = .ok c ∧
    c.longestChain = 3 ∧ c.height = 8 ∧ 8 ≤ (maxDepth + 1) * (2 * 3 + 1) ∧
    ∀ s, c.evalWithin ((maxDepth + 1) * (2 * 3 + 1)) s = some (c.eval s) := by
  have hread : ((parse compileUnfiltered "a or b or not (c and d and e and f) or g").map
      fun c => (c.longestChain, c.height)).toOption = some (3, 8) := by decide +kernel
  cases hc : parse compileUnfiltered "a or b or not (c and d and e and f) or g" with
  | error e =>
    rw [hc] at hread
    cases hread
  | ok c =>
    rw [hc] at hread
    obtain ⟨hchain, hheight⟩ := Prod.mk.inj (Option.some.inj hread)
    obtain ⟨hbound, hroom⟩ := height_le hc
    rw [hchain] at hbound hroom
    exact ⟨c, rfl, hchain, hheight, hheight ▸ hbound, (hroom _ (Nat.le_refl _)).1⟩

/-! ## Chains have no limit -/

/-- A chain of one operand, with so many operators. -/
def repeated (e : Expression) : Nat → Condition
  | 0 => operand e
  | n + 1 => and (repeated e n) (operand e)

theorem height_repeated (e : Expression) (n : Nat) : (repeated e n).height = n + 1 := by
  induction n with
  | zero => rfl
  | succ n ih =>
    rw [repeated, height, ih, height]
    omega

/-- The first operand of a chain is evaluated behind all its operators, whatever the data. -/
theorem evalWithin_repeated (e : Expression) (n : Nat) (s : RenderState) : (repeated e n).evalWithin n s = none := by
  induction n with
  | zero => rfl
  | succ n ih => rw [repeated, evalWithin, ih, Option.bind_none]

theorem shownWithin_repeated (e : Expression) (n : Nat) : (repeated e n).shownWithin n = none := by
  induction n with
  | zero => rfl
  | succ n ih =>
    rw [repeated, shownWithin, ih]
    rfl

theorem derives_repeated {e : Expression} (he : compile e.source = .ok e) (n : Nat) :
    ∃ ts, Derives .andExpr ts (repeated e n).phrase ∧ (∀ text ∈ (repeated e n).phrase.operands, text = e.source) ∧
      (repeated e n).phrase.nesting = 0 ∧ (repeated e n).phrase.compiled compile = .ok (repeated e n) := by
  have hcompiled : (Phrase.operand e.source).compiled compile = .ok (operand e) := by
    rw [Phrase.compiled, he]
    rfl
  induction n with
  | zero =>
    exact ⟨[⟨.operand, e.source, 0⟩], .andFirst (.positive (.operand rfl)), List.forall_mem_singleton.mpr rfl, rfl,
      hcompiled⟩
  | succ n ih =>
    obtain ⟨ts, hderives, hoperands, hnesting, hbefore⟩ := ih
    refine ⟨ts ++ ⟨.keyword, "and", 0⟩ :: [⟨.operand, e.source, 0⟩],
      .andNext hderives ⟨rfl, rfl⟩ (.positive (.operand rfl)),
      List.forall_mem_append.mpr ⟨hoperands, List.forall_mem_singleton.mpr rfl⟩, ?_, ?_⟩
    · rw [repeated, phrase, Phrase.nesting, hnesting]
      rfl
    · rw [repeated, phrase, Phrase.compiled, hbefore, phrase, hcompiled]
      rfl

/-- A chain of an operand is read, however long it is. -/
theorem parse_repeated {e : Expression} (he : compile e.source = .ok e) (hlone : ConditionToken.Lone e.source)
    (n : Nat) : parse compile (repeated e n).shown = .ok (repeated e n) := by
  obtain ⟨ts, hderives, hoperands, hnesting, hcompiled⟩ := derives_repeated he n
  rw [← shown_phrase]
  exact parse_shown_of_derives (.orFirst hderives) (fun text htext => hoperands text htext ▸ hlone)
    (hnesting ▸ Nat.zero_le _) hcompiled

/-- No height bounds all conditions that are read, and no number of open calls is enough for all of them. -/
theorem height_unbounded :
    (¬∃ bound, ∀ text c, parse compileUnfiltered text = .ok c → c.height ≤ bound) ∧
      (¬∃ room, ∀ text c, parse compileUnfiltered text = .ok c → ∃ s, (c.evalWithin room s).isSome) ∧
      ¬∃ room, ∀ text c, parse compileUnfiltered text = .ok c → (c.shownWithin room).isSome := by
  have hok : (compileUnfiltered "a").isOk = true := by decide +kernel
  obtain ⟨e, he⟩ := exists_of_isOk hok
  have hsource : e.source = "a" := keepsSource_compile _ _ _ he
  have hlone : ConditionToken.Lone e.source := by
    rw [hsource]
    exact ⟨ConditionToken.unbroken_nil.plain (p := ['a']) (List.forall_mem_singleton.mpr (by decide)), by decide, by decide⟩
  have hread : ∀ n, parse compileUnfiltered (repeated e n).shown = .ok (repeated e n) :=
    parse_repeated (hsource ▸ he) hlone
  refine ⟨?_, ?_, ?_⟩
  · rintro ⟨bound, hbound⟩
    have hheight := hbound _ _ (hread bound)
    rw [height_repeated] at hheight
    exact Nat.not_succ_le_self bound hheight
  · rintro ⟨room, hroom⟩
    obtain ⟨s, hs⟩ := hroom _ _ (hread room)
    rw [evalWithin_repeated] at hs
    cases hs
  · rintro ⟨room, hroom⟩
    have hs := hroom _ _ (hread room)
    rw [shownWithin_repeated] at hs
    cases hs

end TextTemplate.Condition
