import TextTemplate.Engine
import TextTemplate.Proofs.Token.Reading

/-!
# Rendering and the scopes

Rendering leaves the scopes as it found them, whether it gives a text or fails, and wherever it fails. Loops and
bindings assign names only in scopes that they have opened themselves: what is below the innermost scope stays
as it is while such a body runs, and the scope itself is dropped when the body ends.
-/

namespace TextTemplate

namespace Context

variable {c c' c'' : Context}

/-- If a scope is open over the outermost one, then nothing but what the innermost scope holds has changed. -/
def SameBelow (c c' : Context) : Prop := c.inner ≠ [] → c'.inner ≠ [] ∧ c'.pop = c.pop

theorem SameBelow.refl (c : Context) : c.SameBelow c := fun h => ⟨h, rfl⟩

theorem SameBelow.trans (h : c.SameBelow c') (h' : c'.SameBelow c'') : c.SameBelow c'' := by
  intro hopen
  obtain ⟨hopen', hpop⟩ := h hopen
  obtain ⟨hopen'', hpop'⟩ := h' hopen'
  exact ⟨hopen'', hpop'.trans hpop⟩

/-- An assignment changes the innermost scope only. -/
theorem sameBelow_assign (c : Context) (name : String) (v : Value) : c.SameBelow (c.assign name v) := by
  intro hopen
  obtain ⟨scope, rest, hinner⟩ := List.exists_cons_of_ne_nil hopen
  simp [assign, pop, hinner]

@[simp] theorem pop_push (c : Context) (scope : Scope) : (c.push scope).pop = c := rfl

end Context

namespace RenderM

variable {α β : Type} {R : Context → Context → Prop}

/-- The context in which a run ends, whether it gives an answer or fails. -/
def contextAfter (m : RenderM α) (s : RenderState) : Context :=
  match m s with
  | .ok _ s' => s'.context
  | .error _ s' => s'.context

/-- Every run ends in a context that stands in a relation to the one in which it started. -/
def Keeps (R : Context → Context → Prop) (m : RenderM α) : Prop := ∀ s, R s.context (m.contextAfter s)

/-- Every run ends in the context in which it started. -/
abbrev Restores (m : RenderM α) : Prop := m.Keeps fun c c' => c' = c

/-- Every run ends with the scopes below the innermost one as they were. -/
abbrev StaysInScope (m : RenderM α) : Prop := m.Keeps Context.SameBelow

theorem contextAfter_bind (m : RenderM α) (f : α → RenderM β) (s : RenderState) :
    (m >>= f).contextAfter s = match m s with
      | .ok a s' => (f a).contextAfter s'
      | .error _ s' => s'.context := by
  rw [contextAfter, run_bind]
  cases m s <;> rfl

/-- A sequence keeps what both its parts keep. -/
theorem Keeps.bind (htrans : ∀ {c c' c''}, R c c' → R c' c'' → R c c'') {m : RenderM α} {f : α → RenderM β}
    (hm : m.Keeps R) (hf : ∀ a, (f a).Keeps R) : (m >>= f).Keeps R := by
  intro s
  have hs := hm s
  rw [contextAfter_bind]
  rw [contextAfter] at hs
  cases h : m s with
  | ok a s' =>
    rw [h] at hs
    exact htrans hs (hf a s')
  | error e s' =>
    rw [h] at hs
    exact hs

theorem Restores.bind {m : RenderM α} {f : α → RenderM β} (hm : m.Restores) (hf : ∀ a, (f a).Restores) :
    (m >>= f).Restores := Keeps.bind (fun h h' => h'.trans h) hm hf

theorem StaysInScope.bind {m : RenderM α} {f : α → RenderM β} (hm : m.StaysInScope)
    (hf : ∀ a, (f a).StaysInScope) : (m >>= f).StaysInScope :=
  Keeps.bind (R := Context.SameBelow) Context.SameBelow.trans hm hf

theorem restores_pure (a : α) : (pure a : RenderM α).Restores := fun _ => rfl

theorem restores_throw (e : RenderError) : (throw e : RenderM α).Restores := fun _ => rfl

theorem restores_get : (get : RenderM RenderState).Restores := fun _ => rfl

/-- What is done to values does not touch the scopes. -/
theorem restores_onValues (m : EvalM α) : (onValues m).Restores := by
  intro s
  rw [contextAfter, onValues]
  cases m s.store <;> rfl

theorem Restores.staysInScope {m : RenderM α} (hm : m.Restores) : m.StaysInScope := by
  intro s
  rw [hm s]
  exact Context.SameBelow.refl _

/-- A scope that is opened for a run that stays in it is gone when the run ends, with all else as it was. -/
theorem restores_withScope (scope : Scope) {m : RenderM α} (hm : m.StaysInScope) :
    (withScope scope m).Restores := by
  intro s
  have hopen : (s.context.push scope).inner ≠ [] := List.cons_ne_nil _ _
  have hpop := (hm { s with context := s.context.push scope } hopen).2
  rw [contextAfter] at hpop ⊢
  rw [withScope]
  cases h : m { s with context := s.context.push scope } with
  | ok a s' =>
    rw [h] at hpop
    exact hpop
  | error e s' =>
    rw [h] at hpop
    exact hpop

end RenderM

open RenderM

/-! ## Expressions -/

theorem Operand.resolve_restores (o : Operand) : o.resolve.Restores := by
  unfold Operand.resolve
  split
  · exact restores_pure _
  · apply Restores.bind restores_get
    intro s
    split
    · exact restores_throw _
    · exact restores_onValues _

theorem FilterCall.apply_restores (c : FilterCall) (v : Value) : (c.apply v).Restores := by
  unfold FilterCall.apply
  split
  · exact restores_onValues _
  · exact (Operand.resolve_restores _).bind fun _ => restores_onValues _

theorem FilterCall.applyAll_restores (calls : List FilterCall) (v : Value) : (applyAll calls v).Restores := by
  induction calls generalizing v with
  | nil => exact restores_pure v
  | cons c rest ih => exact (c.apply_restores v).bind ih

/-- An expression that cannot be resolved leaves the scopes alone too, whatever is taken in its place. -/
theorem Expression.resolve_restores (e : Expression) (onMissing : OnMissing) : (e.resolve onMissing).Restores := by
  intro s
  have hoperand := e.operand.resolve_restores s
  have hcalls (v : Value) (s' : RenderState) := FilterCall.applyAll_restores e.calls v s'
  simp only [contextAfter] at hoperand hcalls ⊢
  rw [Expression.resolve]
  cases h : e.operand.resolve s with
  | ok v s' =>
    rw [h] at hoperand
    exact (hcalls v s').trans hoperand
  | error failure s' =>
    rw [h] at hoperand
    cases failure with
    | missing path segment =>
      cases onMissing with
      | ignore => exact (hcalls .none s').trans hoperand
      | substitute =>
        by_cases hempty : s'.context.ifInvalid.isEmpty
        · simp only [hempty, if_true]
          exact (hcalls (.text "") s').trans hoperand
        · simp only [hempty, Bool.false_eq_true, if_false]
          exact hoperand
    | _ => exact hoperand

theorem Expression.render_restores (e : Expression) : e.render.Restores :=
  (e.resolve_restores .substitute).bind fun _ => restores_onValues _

/-! ## Conditions -/

theorem Condition.eval_restores (c : Condition) : c.eval.Restores := by
  induction c with
  | operand e => exact (e.resolve_restores .ignore).bind fun _ => restores_get.bind fun _ => restores_pure _
  | comparison left op right =>
    exact (left.resolve_restores .ignore).bind fun _ =>
      (right.resolve_restores .ignore).bind fun _ => restores_onValues _
  | group inside ih => exact ih
  | not inside ih => exact ih.bind fun _ => restores_pure _
  | and left right hleft hright =>
    refine hleft.bind fun b => ?_
    cases b
    · exact restores_pure _
    · exact hright
  | or left right hleft hright =>
    refine hleft.bind fun b => ?_
    cases b
    · exact hright
    · exact restores_pure _

/-! ## Loops -/

namespace Loop

/-- Names are assigned in the innermost scope only. -/
theorem assignAll_staysInScope (found : List (String × Value)) : (assignAll found).StaysInScope := by
  induction found with
  | nil => exact (restores_pure ()).staysInScope
  | cons e rest ih => exact StaysInScope.bind (fun s => Context.sameBelow_assign s.context e.1 e.2) fun _ => ih

theorem bind_staysInScope (names : List String) (item : Value) : (bind names item).StaysInScope := by
  unfold bind
  split
  · exact assignAll_staysInScope _
  · refine (restores_onValues _).staysInScope.bind fun values => ?_
    split
    · exact assignAll_staysInScope _
    · exact (restores_throw _).staysInScope

/-- The rounds of a loop stay in its scope if each of them does, also when one of them fails. -/
theorem run_staysInScope {item? : Nat → EvalM (Option Value)} {body : Nat → Value → RenderM String}
    (hbody : ∀ index item, (body index item).StaysInScope) (fuel index : Nat) :
    (run item? body fuel index).StaysInScope := by
  induction fuel generalizing index with
  | zero => exact (restores_pure "").staysInScope
  | succ fuel ih =>
    refine (restores_onValues _).staysInScope.bind fun found => ?_
    cases found with
    | none => exact (restores_pure "").staysInScope
    | some item =>
      exact (hbody index item).bind fun _ => (ih (index + 1)).bind fun _ => (restores_pure _).staysInScope

/-- A loop restores the scopes if its body and its empty part do. -/
theorem render_restores (names : List String) (sequence : Expression) (reversed : Bool)
    {body empty : RenderM String} (hbody : body.Restores) (hempty : empty.Restores) :
    (render names sequence reversed body empty).Restores := by
  refine (sequence.resolve_restores .ignore).bind fun v => (restores_onValues _).bind fun source => ?_
  split
  · exact hempty
  split
  · exact restores_throw _
  refine (restores_onValues _).bind fun id => (restores_onValues _).bind fun outer => restores_get.bind fun s => ?_
  refine restores_withScope _ (run_staysInScope (fun index item => ?_) _ 0)
  -- one round: `forloop` is brought up to date, the names are bound, and the body runs
  exact StaysInScope.bind (fun s => Context.SameBelow.refl s.context) fun _ =>
    (assignAll_staysInScope _).bind fun _ => (bind_staysInScope names item).bind fun _ => hbody.staysInScope

end Loop

/-! ## Nodes -/

namespace Node

theorem resolveAll_restores (assignments : List (String × Expression)) : (resolveAll assignments).Restores := by
  induction assignments with
  | nil => exact restores_pure []
  | cons a rest ih => exact (a.2.resolve_restores .substitute).bind fun _ => ih.bind fun _ => restores_pure _

theorem writeFirstTrue_restores (candidates : List Expression) : (writeFirstTrue candidates).Restores := by
  induction candidates with
  | nil => exact restores_pure ""
  | cons e rest ih =>
    refine (e.resolve_restores .ignore).bind fun v => restores_get.bind fun s => ?_
    split
    · exact restores_onValues _
    · exact ih

theorem operandsEqual_restores (left right : Expression) : (operandsEqual left right).Restores :=
  (left.resolve_restores .ignore).bind fun _ =>
    (right.resolve_restores .ignore).bind fun _ => restores_onValues _

mutual

theorem render_restores : (n : Node) → n.render.Restores
  | text s => restores_pure s
  | output e => e.render_restores
  | choice branches otherwise => renderBranches_restores (renderOption_restores otherwise) branches
  | loop names sequence reversed body empty =>
    Loop.render_restores names sequence reversed (renderAll_restores body) (renderAll_restores empty)
  | binding assignments body =>
    (resolveAll_restores assignments).bind fun _ =>
      restores_withScope _ (renderAll_restores body).staysInScope
  | equality negated left right whenTrue whenFalse => by
    refine (operandsEqual_restores left right).bind fun equal => ?_
    split
    · exact renderAll_restores whenTrue
    · exact renderAll_restores whenFalse
  | firstTrue candidates => writeFirstTrue_restores candidates
  | spaceless body => (renderAll_restores body).bind fun _ => restores_pure _
  | filtered calls body =>
    (renderAll_restores body).bind fun _ =>
      (FilterCall.applyAll_restores calls _).bind fun _ => restores_onValues _
  | labelled _ body => (renderAll_restores body).bind fun _ => restores_pure _
  | marker s => restores_pure s

theorem renderAll_restores : (nodes : List Node) → (renderAll nodes).Restores
  | [] => restores_pure ""
  | n :: rest => (render_restores n).bind fun _ => (renderAll_restores rest).bind fun _ => restores_pure _

theorem renderBranches_restores {otherwise : RenderM String} (h : otherwise.Restores) :
    (branches : List (Condition × List Node)) → (renderBranches otherwise branches).Restores
  | [] => h
  | (condition, body) :: rest => by
    refine condition.eval_restores.bind fun holds => ?_
    split
    · exact renderAll_restores body
    · exact renderBranches_restores h rest

theorem renderOption_restores : (otherwise : Option (List Node)) → (renderOption otherwise).Restores
  | none => restores_pure ""
  | some body => renderAll_restores body

end

/-- Rendering ends in the context in which it started, with the same scopes and the same values in each of them,
whether it gives a text or fails, whatever the scopes are and wherever in the tree a failure comes from. So a name
that a loop or a binding has is gone after its block, and the outermost scope is never assigned to. -/
theorem renderAll_context (nodes : List Node) (s : RenderState) :
    match renderAll nodes s with
    | .ok _ s' => s'.context = s.context
    | .error _ s' => s'.context = s.context := by
  have h := renderAll_restores nodes s
  rw [contextAfter] at h
  cases hrun : renderAll nodes s with
  | ok text s' =>
    rw [hrun] at h
    exact h
  | error e s' =>
    rw [hrun] at h
    exact h

end Node

end TextTemplate
