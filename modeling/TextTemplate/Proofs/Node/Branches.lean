import TextTemplate.Proofs.Condition.Evaluation

/-!
# The branches of an `if` tag

The conditions of branches are tried in order until one holds, and no condition after it is evaluated. Then its body
is rendered, or the `else` branch if no condition holds, or nothing if there is none. Nothing else is done, whether each
branch is next to the one before it or stands in its `else` branch: conditions are evaluated in the same states, and
what they ask of the data is the same.
-/

namespace TextTemplate

/-- Trying the conditions of branches in order from a state: the conditions that are evaluated, each with the state
before it, and the body of the branch that is chosen, if any. -/
inductive Tries : List (Condition × List Node) → RenderState → List (Condition × RenderState) →
    RenderOutcome (Option (List Node)) → Prop
  | exhausted {s} : Tries [] s [] (.ok none s)
  | holds {c body rest s s'} (holds : c.eval s = .ok true s') :
    Tries ((c, body) :: rest) s [(c, s)] (.ok (some body) s')
  | next {c body rest s s' tried r} (holdsNot : c.eval s = .ok false s') (later : Tries rest s' tried r) :
    Tries ((c, body) :: rest) s ((c, s) :: tried) r
  | fails {c body rest s failure s'} (fails : c.eval s = .error failure s') :
    Tries ((c, body) :: rest) s [(c, s)] (.error failure s')

variable {branches : List (Condition × List Node)} {s : RenderState} {tried tried' : List (Condition × RenderState)}
  {r r' : RenderOutcome (Option (List Node))}

namespace Tries

theorem exists_tries (branches : List (Condition × List Node)) (s : RenderState) :
    ∃ tried r, Tries branches s tried r := by
  induction branches generalizing s with
  | nil => exact ⟨_, _, .exhausted⟩
  | cons b rest ih =>
    obtain ⟨c, body⟩ := b
    cases h : c.eval s with
    | error failure s' => exact ⟨_, _, .fails h⟩
    | ok holds s' =>
      cases holds with
      | true => exact ⟨_, _, .holds h⟩
      | false =>
        obtain ⟨tried, r, hlater⟩ := ih s'
        exact ⟨_, _, .next h hlater⟩

/-- The rules leave no choice. -/
theorem unique (h : Tries branches s tried r) (h' : Tries branches s tried' r') : tried' = tried ∧ r' = r := by
  induction h generalizing tried' r' with
  | exhausted =>
    cases h'
    exact ⟨rfl, rfl⟩
  | holds hc | fails hc =>
    cases h' with
    | holds hc' | fails hc' | next hc' _ => cases hc.symm.trans hc' <;> exact ⟨rfl, rfl⟩
  | next hc _ ih =>
    cases h' with
    | holds hc' | fails hc' => cases hc.symm.trans hc'
    | next hc' hlater =>
      cases hc.symm.trans hc'
      obtain ⟨rfl, rfl⟩ := ih hlater
      exact ⟨rfl, rfl⟩

/-- The conditions that are evaluated are the first ones, in order. -/
theorem isPrefix (h : Tries branches s tried r) : tried.map (·.1) <+: branches.map (·.1) := by
  induction h with
  | exhausted => exact List.prefix_rfl
  | holds | fails => exact List.prefix_append [_] _
  | next _ _ ih => exact (List.prefix_cons_inj _).mpr ih

end Tries

/-- What conditions ask of the data, one after the other. -/
def Condition.journal (tried : List (Condition × RenderState)) : List RenderEntry :=
  tried.flatMap fun x => x.1.watch.entries x.2

namespace Node

/-- After conditions have been tried, the chosen body is rendered, or the `else` branch if none is chosen. -/
def renderChosen (otherwise : Option (List Node)) (tried : List (Condition × RenderState)) :
    RenderOutcome (Option (List Node)) → List RenderEntry × RenderOutcome String
  | .ok chosen s =>
    (Condition.journal tried ++ (watchOption (chosen.or otherwise)).entries s,
      (watchOption (chosen.or otherwise)).plain s)
  | .error failure s => (Condition.journal tried, .error failure s)

/-- Rendering the node tries the conditions of the branches in order and renders what is chosen, and does nothing
else. -/
def TriesInOrder (branches : List (Condition × List Node)) (otherwise : Option (List Node)) (n : Node) : Prop :=
  ∀ s, ∃ tried r, Tries branches s tried r ∧ (∀ tried' r', Tries branches s tried' r' → tried' = tried ∧ r' = r) ∧
    tried.map (·.1) <+: branches.map (·.1) ∧ n.watch s = renderChosen otherwise tried r

theorem watchBranches_run (h : Tries branches s tried r) (otherwise : Option (List Node)) :
    watchBranches (watchOption otherwise) branches s = renderChosen otherwise tried r := by
  have hcondition (c : Condition) (s : RenderState) : c.watch s = (c.watch.entries s, c.eval s) := by
    rw [← c.plain_watch]
    rfl
  induction h with
  | exhausted => rfl
  | holds hc =>
    rw [watchBranches, WatchM.watch_bind, hcondition, hc]
    simp [renderChosen, Condition.journal, watchOption, WatchM.entries, WatchM.plain]
  | fails hc =>
    rw [watchBranches, WatchM.watch_bind, hcondition, hc]
    simp [renderChosen, Condition.journal]
  | @next c body rest s s' tried r hc _ ih =>
    rw [watchBranches, WatchM.watch_bind, hcondition, hc]
    simp only [Bool.false_eq_true, if_false, ih]
    cases r <;> simp [renderChosen, Condition.journal]

/-- The node of an `if` tag does so. -/
theorem choice_triesInOrder (branches : List (Condition × List Node)) (otherwise : Option (List Node)) :
    (choice branches otherwise).TriesInOrder branches otherwise := by
  intro s
  obtain ⟨tried, r, h⟩ := Tries.exists_tries branches s
  refine ⟨tried, r, h, fun _ _ h' => h.unique h', h.isPrefix, ?_⟩
  rw [watch]
  exact watchBranches_run h otherwise

/-- Branches of which each stands in the `else` branch of the one before. -/
def nest (first : Condition × List Node) (more : List (Condition × List Node)) (otherwise : Option (List Node)) :
    Node :=
  match more with
  | [] => choice [first] otherwise
  | second :: rest => choice [first] (some [nest second rest otherwise])

theorem watchAll_singleton (n : Node) : watchAll [n] = n.watch := by
  funext s
  rw [watchAll, WatchM.watch_bind]
  rcases n.watch s with ⟨entries, _ | _⟩
  · rw [watchAll]
    simp [bind, pure]
  · rfl

/-- Rendering them is rendering branches that stand next to each other. -/
theorem watch_nest (first : Condition × List Node) (more : List (Condition × List Node))
    (otherwise : Option (List Node)) :
    (nest first more otherwise).watch = (choice (first :: more) otherwise).watch := by
  induction more generalizing first with
  | nil => rfl
  | cons second rest ih =>
    rw [nest, watch, watchBranches, watchBranches, watchOption, watchAll_singleton, ih, watch, watch, ← watchBranches]

end Node

end TextTemplate
