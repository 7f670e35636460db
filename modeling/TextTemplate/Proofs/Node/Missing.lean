import TextTemplate.Engine
import TextTemplate.Proofs.Compile.Resolution
import TextTemplate.Proofs.Compile.WellNested
import TextTemplate.Proofs.Node.Calm

/-!
# Missing variables while rendering

Wherever an operand is looked up (in a variable tag, in a condition, in the header of a loop or of a binding) a
lookup that fails is replaced, and rendering goes on. The argument of a filter is looked up as well, and there
nothing takes the place of a lookup that fails: it ends the rendering. This is the only way in which a missing
variable can.
-/

namespace TextTemplate

/-! ## Failing over a lookup -/

/-- A computation that ends with a failed lookup ends with one that `P` allows. -/
def MissesOnly {σ α : Type} (P : String → String → Prop) (m : EStateM RenderError σ α) : Prop :=
  ∀ s path segment s', m s = .error (.missing path segment) s' → P path segment

section Sequences

variable {σ α β : Type} {P : String → String → Prop} {m : EStateM RenderError σ α}

/-- A sequence fails over a lookup as its parts do; the second one counts only where the first one leads. -/
theorem MissesOnly.bind_ok {f : α → EStateM RenderError σ β} (hm : MissesOnly P m)
    (hf : ∀ s a s', m s = .ok a s' → MissesOnly P (f a)) : MissesOnly P (m >>= f) := by
  intro s path segment s' h
  rw [run_bind] at h
  cases hrun : m s with
  | ok a s₁ =>
    rw [hrun] at h
    exact hf s a s₁ hrun s₁ path segment s' h
  | error e s₁ =>
    rw [hrun] at h
    cases h
    exact hm s path segment s' hrun

theorem MissesOnly.bind {f : α → EStateM RenderError σ β} (hm : MissesOnly P m) (hf : ∀ a, MissesOnly P (f a)) :
    MissesOnly P (m >>= f) := hm.bind_ok fun _ a _ _ => hf a

theorem missesOnly_pure (a : α) : MissesOnly P (pure a : EStateM RenderError σ α) := by
  intro s path segment s' h
  cases h

theorem missesOnly_get : MissesOnly P (get : EStateM RenderError σ σ) := by
  intro s path segment s' h
  cases h

theorem missesOnly_modify (f : σ → σ) : MissesOnly P (modify f : EStateM RenderError σ PUnit) := by
  intro s path segment s' h
  cases h

theorem missesOnly_throw {e : RenderError} (he : ∀ path segment, e = .missing path segment → P path segment) :
    MissesOnly P (throw e : EStateM RenderError σ α) := by
  intro s path segment s' h
  cases h
  exact he path segment rfl

end Sequences

variable {P : String → String → Prop}

/-- A calm computation fails over no lookup. -/
theorem Calm.missesOnly {α : Type} {m : EvalM α} (h : Calm m) : MissesOnly P m := by
  induction h with
  | pure a => exact missesOnly_pure a
  | throw hother =>
    refine missesOnly_throw fun path segment he => ?_
    rw [he] at hother
    cases hother
  | get => exact missesOnly_get
  | freshIdent =>
    intro s path segment s' hrun
    cases hrun
  | setCount id count => exact missesOnly_modify _
  | bind _ _ ihfirst ihnext => exact ihfirst.bind ihnext
  | @recover _ m _ answer? ih =>
    intro s path segment s' hrun
    rw [EvalM.recover] at hrun
    split at hrun
    · cases hrun
    · rename_i hfails
      split at hrun
      · cases hrun
      · cases hrun
        exact ih s path segment s' hfails

/-- What is done to values fails over a lookup as it does on its own. -/
theorem MissesOnly.onValues {α : Type} {m : EvalM α} (hm : MissesOnly P m) : MissesOnly P (RenderM.onValues m) := by
  intro s path segment s' h
  rw [RenderM.onValues] at h
  cases hrun : m s.store with
  | ok a st =>
    rw [hrun] at h
    cases h
  | error e st =>
    rw [hrun] at h
    cases h
    exact hm s.store path segment st hrun

/-- A run in a scope of its own fails over a lookup as the run does. -/
theorem MissesOnly.withScope {α : Type} {m : RenderM α} (hm : MissesOnly P m) (scope : Scope) :
    MissesOnly P (RenderM.withScope scope m) := by
  intro s path segment s' h
  rw [RenderM.withScope] at h
  cases hrun : m { s with context := s.context.push scope } with
  | ok a s₁ =>
    rw [hrun] at h
    cases h
  | error e s₁ =>
    rw [hrun] at h
    cases h
    exact hm _ path segment s₁ hrun

/-! ## Expressions -/

/-- However the call is used, it fails over a lookup only as `P` allows. -/
def FilterCall.Allows (P : String → String → Prop) (c : FilterCall) : Prop := ∀ v, MissesOnly P (c.apply v)

/-- The argument of one of the calls can fail over this lookup. -/
def ArgumentMisses (calls : List FilterCall) (path segment : String) : Prop :=
  ∃ c ∈ calls, ∃ a, c.argument = some a ∧ ∃ s s', a.resolve s = .error (.missing path segment) s'

/-- A call fails over a lookup only in its argument, if its filter does not do so itself. -/
theorem FilterCall.allows_of_isCalm {calls : List FilterCall} {c : FilterCall} (hc : c ∈ calls)
    (hf : c.filter.IsCalm) : c.Allows (ArgumentMisses calls) := by
  intro v
  rw [FilterCall.apply]
  split
  · exact (hf.call _).missesOnly.onValues
  · rename_i a ha
    have hargument : MissesOnly (ArgumentMisses calls) a.resolve := fun s path segment s' h =>
      ⟨c, hc, a, ha, s, s', h⟩
    exact hargument.bind fun _ => (hf.call _).missesOnly.onValues

theorem FilterCall.applyAll_missesOnly {calls : List FilterCall} (h : ∀ c ∈ calls, c.Allows P) (v : Value) :
    MissesOnly P (applyAll calls v) := by
  induction calls generalizing v with
  | nil => exact missesOnly_pure v
  | cons c rest ih =>
    obtain ⟨hc, hrest⟩ := List.forall_mem_cons.mp h
    exact (hc v).bind fun v' => ih hrest v'

/-- The operand of an expression may be missing, whatever is taken in its place: only its filter calls can fail
over a lookup. -/
theorem Expression.resolve_missesOnly {e : Expression} (h : ∀ c ∈ e.calls, c.Allows P) (onMissing : OnMissing) :
    MissesOnly P (e.resolve onMissing) := by
  intro s path segment s' hrun
  have hcalls (v : Value) (s₁ : RenderState) := FilterCall.applyAll_missesOnly h v s₁ path segment s'
  rw [Expression.resolve] at hrun
  cases hoperand : e.operand.resolve s with
  | ok v s₁ =>
    rw [hoperand] at hrun
    exact hcalls v s₁ hrun
  | error failure s₁ =>
    rw [hoperand] at hrun
    cases failure with
    | missing _ _ =>
      cases onMissing with
      | ignore => exact hcalls .none s₁ hrun
      | substitute =>
        by_cases hempty : s₁.context.ifInvalid.isEmpty
        · simp only [hempty, if_true] at hrun
          exact hcalls (.text "") s₁ hrun
        · simp only [hempty, Bool.false_eq_true, if_false] at hrun
          cases hrun
    | _ => cases hrun

theorem Expression.render_missesOnly {e : Expression} (h : ∀ c ∈ e.calls, c.Allows P) : MissesOnly P e.render :=
  (e.resolve_missesOnly h .substitute).bind fun v => v.write_calm.missesOnly.onValues

/-! ## Conditions -/

theorem Condition.eval_missesOnly {c : Condition} (h : ∀ call ∈ c.calls, call.Allows P) : MissesOnly P c.eval := by
  induction c with
  | operand e =>
    exact (e.resolve_missesOnly h .ignore).bind fun _ => missesOnly_get.bind fun _ => missesOnly_pure _
  | comparison left op right =>
    obtain ⟨hleft, hright⟩ := List.forall_mem_append.mp h
    exact (left.resolve_missesOnly hleft .ignore).bind fun a =>
      (right.resolve_missesOnly hright .ignore).bind fun b => (op.holds_calm a b).missesOnly.onValues
  | group inside ih => exact ih h
  | not inside ih => exact (ih h).bind fun _ => missesOnly_pure _
  | and left right ihleft ihright =>
    obtain ⟨hleft, hright⟩ := List.forall_mem_append.mp h
    refine (ihleft hleft).bind fun b => ?_
    cases b
    · exact missesOnly_pure _
    · exact ihright hright
  | or left right ihleft ihright =>
    obtain ⟨hleft, hright⟩ := List.forall_mem_append.mp h
    refine (ihleft hleft).bind fun b => ?_
    cases b
    · exact ihright hright
    · exact missesOnly_pure _

/-! ## Loops -/

namespace Loop

theorem assignAll_missesOnly (found : List (String × Value)) : MissesOnly P (assignAll found) := by
  induction found with
  | nil => exact missesOnly_pure ()
  | cons e rest ih => exact (missesOnly_modify _).bind fun _ => ih

theorem bind_missesOnly (names : List String) (item : Value) : MissesOnly P (bind names item) := by
  unfold bind
  split
  · exact assignAll_missesOnly _
  · refine (parts_calm item).missesOnly.onValues.bind fun values => ?_
    split
    · exact assignAll_missesOnly _
    · exact missesOnly_throw (by simp)

/-- The rounds of a loop fail over a lookup as its body does. -/
theorem run_missesOnly {item? : Nat → EvalM (Option Value)} {body : Nat → Value → RenderM String}
    (hitem : ∀ n, MissesOnly P (item? n)) (hbody : ∀ index item, MissesOnly P (body index item)) (fuel index : Nat) :
    MissesOnly P (run item? body fuel index) := by
  induction fuel generalizing index with
  | zero => exact missesOnly_pure ""
  | succ fuel ih =>
    refine (hitem index).onValues.bind fun found => ?_
    cases found with
    | none => exact missesOnly_pure ""
    | some item => exact (hbody index item).bind fun _ => (ih (index + 1)).bind fun _ => missesOnly_pure _

theorem render_missesOnly (names : List String) {sequence : Expression} (h : ∀ c ∈ sequence.calls, c.Allows P)
    (reversed : Bool) {body empty : RenderM String} (hbody : MissesOnly P body) (hempty : MissesOnly P empty) :
    MissesOnly P (render names sequence reversed body empty) := by
  refine (sequence.resolve_missesOnly h .ignore).bind fun v => (source_calm v).missesOnly.onValues.bind_ok ?_
  intro s found s' hfound
  -- not every source gets its items without a lookup, but one that was made of a value does
  have hcalm : found.IsCalm := by
    rw [RenderM.onValues] at hfound
    cases hrun : source v s.store with
    | ok found' st =>
      rw [hrun] at hfound
      cases hfound
      exact isCalm_of_source hrun
    | error e st =>
      rw [hrun] at hfound
      cases hfound
  split
  · exact hempty
  split
  · exact missesOnly_throw (by simp)
  refine Calm.freshIdent.missesOnly.onValues.bind fun id => ?_
  refine Calm.freshIdent.missesOnly.onValues.bind fun outer => missesOnly_get.bind fun s => ?_
  refine MissesOnly.withScope (run_missesOnly (fun n => Calm.missesOnly ?_) (fun index item => ?_) _ 0) _
  · split
    · exact Source.reverse_isCalm hcalm n
    · exact hcalm n
  · exact (missesOnly_modify _).bind fun _ => (assignAll_missesOnly _).bind fun _ =>
      (bind_missesOnly names item).bind fun _ => hbody

end Loop

/-! ## Nodes -/

namespace Node

theorem resolveAll_missesOnly {assignments : List (String × Expression)}
    (h : ∀ c ∈ assignments.flatMap (·.2.calls), c.Allows P) : MissesOnly P (resolveAll assignments) := by
  induction assignments with
  | nil => exact missesOnly_pure []
  | cons a rest ih =>
    obtain ⟨hfirst, hrest⟩ := List.forall_mem_append.mp h
    exact (a.2.resolve_missesOnly hfirst .substitute).bind fun _ => (ih hrest).bind fun _ => missesOnly_pure _

theorem writeFirstTrue_missesOnly {candidates : List Expression}
    (h : ∀ c ∈ candidates.flatMap (·.calls), c.Allows P) : MissesOnly P (writeFirstTrue candidates) := by
  induction candidates with
  | nil => exact missesOnly_pure ""
  | cons e rest ih =>
    obtain ⟨hfirst, hrest⟩ := List.forall_mem_append.mp h
    refine (e.resolve_missesOnly hfirst .ignore).bind fun v => missesOnly_get.bind fun s => ?_
    split
    · exact v.write_calm.missesOnly.onValues
    · exact ih hrest

theorem operandsEqual_missesOnly {left right : Expression} (hleft : ∀ c ∈ left.calls, c.Allows P)
    (hright : ∀ c ∈ right.calls, c.Allows P) : MissesOnly P (operandsEqual left right) :=
  (left.resolve_missesOnly hleft .ignore).bind fun a =>
    (right.resolve_missesOnly hright .ignore).bind fun b => (a.isEqual_calm b).missesOnly.onValues

mutual

theorem render_missesOnly : (n : Node) → (∀ c ∈ n.calls, c.Allows P) → MissesOnly P n.render
  | text s, _ => missesOnly_pure s
  | output e, h => e.render_missesOnly h
  | choice branches otherwise, h => by
    obtain ⟨hbranches, hotherwise⟩ := List.forall_mem_append.mp h
    exact renderBranches_missesOnly (renderOption_missesOnly otherwise hotherwise) branches hbranches
  | loop names sequence reversed body empty, h => by
    obtain ⟨hfirst, hempty⟩ := List.forall_mem_append.mp h
    obtain ⟨hsequence, hbody⟩ := List.forall_mem_append.mp hfirst
    exact Loop.render_missesOnly names hsequence reversed (renderAll_missesOnly body hbody)
      (renderAll_missesOnly empty hempty)
  | binding assignments body, h => by
    obtain ⟨hassignments, hbody⟩ := List.forall_mem_append.mp h
    exact (resolveAll_missesOnly hassignments).bind fun _ => (renderAll_missesOnly body hbody).withScope _
  | equality negated left right whenTrue whenFalse, h => by
    obtain ⟨hfirst, hfalse⟩ := List.forall_mem_append.mp h
    obtain ⟨hoperands, htrue⟩ := List.forall_mem_append.mp hfirst
    obtain ⟨hleft, hright⟩ := List.forall_mem_append.mp hoperands
    refine (operandsEqual_missesOnly hleft hright).bind fun equal => ?_
    split
    · exact renderAll_missesOnly whenTrue htrue
    · exact renderAll_missesOnly whenFalse hfalse
  | firstTrue candidates, h => writeFirstTrue_missesOnly h
  | spaceless body, h => (renderAll_missesOnly body h).bind fun _ => missesOnly_pure _
  | filtered calls body, h => by
    obtain ⟨hcalls, hbody⟩ := List.forall_mem_append.mp h
    exact (renderAll_missesOnly body hbody).bind fun _ =>
      (FilterCall.applyAll_missesOnly hcalls _).bind fun v => v.write_calm.missesOnly.onValues
  | labelled _ body, h => (renderAll_missesOnly body h).bind fun _ => missesOnly_pure _
  | marker s, _ => missesOnly_pure s

theorem renderAll_missesOnly : (nodes : List Node) → (∀ c ∈ allCalls nodes, c.Allows P) →
    MissesOnly P (renderAll nodes)
  | [], _ => missesOnly_pure ""
  | n :: rest, h => by
    obtain ⟨hfirst, hrest⟩ := List.forall_mem_append.mp h
    exact (render_missesOnly n hfirst).bind fun _ =>
      (renderAll_missesOnly rest hrest).bind fun _ => missesOnly_pure _

theorem renderBranches_missesOnly {otherwise : RenderM String} (hotherwise : MissesOnly P otherwise) :
    (branches : List (Condition × List Node)) → (∀ c ∈ branchCalls branches, c.Allows P) →
      MissesOnly P (renderBranches otherwise branches)
  | [], _ => hotherwise
  | (condition, body) :: rest, h => by
    obtain ⟨hfirst, hrest⟩ := List.forall_mem_append.mp h
    obtain ⟨hcondition, hbody⟩ := List.forall_mem_append.mp hfirst
    refine (condition.eval_missesOnly hcondition).bind fun holds => ?_
    split
    · exact renderAll_missesOnly body hbody
    · exact renderBranches_missesOnly hotherwise rest hrest

theorem renderOption_missesOnly : (otherwise : Option (List Node)) → (∀ c ∈ optionCalls otherwise, c.Allows P) →
    MissesOnly P (renderOption otherwise)
  | none, _ => missesOnly_pure ""
  | some body, h => renderAll_missesOnly body h

end

end Node

/-! ## Templates of the standard libraries -/

namespace Environment

variable {env : Environment} {base : List Nat} {source : String} {nodes : List Node}

/-- No library of the environment has other filters than the standard ones. -/
def StandardFiltersOnly (env : Environment) : Prop :=
  ∀ l ∈ env.libraries, ∀ name f, l.filter? name = some f → StandardFilter.all.lookup name = some f

theorem standard_standardFiltersOnly (precedence : Precedence) : (standard precedence).StandardFiltersOnly := by
  intro l hl name f hfind
  rcases List.mem_pair.mp hl with rfl | rfl
  · simp [StandardLibrary.tags, Library.ofEntries, Library.filter?] at hfind
  · exact hfind

/-- What the tags do if there are only the standard ones. -/
def standardRoles : TagRoles := fun _ name =>
  (Directive.ofName? name).elim (.host fun _ => .done none) .standard

theorem StandardTagsOnly.tagsSuit (henv : env.StandardTagsOnly) : env.TagsSuit standardRoles := by
  intro number name factory h
  obtain ⟨l, hl, hfind⟩ := Option.bind_eq_some_iff.mp h
  have hlookup := henv l (List.mem_of_getElem? hl) name factory hfind
  rw [Directive.lookup_standard] at hlookup
  obtain ⟨d, hd, rfl⟩ := Option.map_eq_some_iff.mp hlookup
  rw [standardRoles, hd]
  rfl

theorem standardRoles_keepTo (mayLoad : Bool) (P : FilterCall → Prop) : standardRoles.HostsKeepTo mayLoad P := by
  intro number name script h content
  rw [standardRoles] at h
  cases hd : Directive.ofName? name with
  | none =>
    rw [hd] at h
    cases h
    exact List.forall_mem_nil _
  | some d =>
    rw [hd] at h
    cases h

theorem StandardFiltersOnly.gives (hfilters : env.StandardFiltersOnly) (active : List Nat) :
    (env.filterLookup active).Gives fun c => c.filter.IsCalm := by
  intro name f argument h
  obtain ⟨l, hl, hfind⟩ := List.exists_of_findSome?_eq_some (filterLookup_eq_ok_iff.mp h)
  obtain ⟨number, -, hnumber⟩ := List.mem_filterMap.mp hl
  exact StandardFilter.isCalm_of_lookup (hfilters l (List.mem_of_getElem? hnumber) name f hfind)

/-- A compiled template that fails over a missing variable has a filter call whose argument is a lookup path, and
the failure is that of looking up this path. So missing variables in other places end no rendering, and if all
arguments of filters are literals, then none does. -/
theorem render_misses_argument (henv : env.StandardTagsOnly) (hfilters : env.StandardFiltersOnly)
    (hcompile : env.compile base source = .ok nodes) {s s' : RenderState} {path segment : String}
    (hrender : Node.renderAll nodes s = .error (.missing path segment) s') :
    ∃ c ∈ Node.allCalls nodes, ∃ a first rest, c.argument = some a ∧ a.meaning = .path first rest ∧
      ∃ s₁ s₂, a.resolve s₁ = .error (.missing path segment) s₂ := by
  have hcalm := given_of_compile henv.tagsSuit (standardRoles_keepTo true _) hfilters.gives hcompile
  have hallows (c : FilterCall) (hc : c ∈ Node.allCalls nodes) : c.Allows (ArgumentMisses (Node.allCalls nodes)) :=
    FilterCall.allows_of_isCalm hc (hcalm c hc)
  obtain ⟨c, hc, a, ha, s₁, s₂, hmisses⟩ := Node.renderAll_missesOnly nodes hallows s path segment s' hrender
  cases hmeaning : a.meaning with
  | literal v =>
    rw [Operand.resolve, hmeaning] at hmisses
    cases hmisses
  | path first rest => exact ⟨c, hc, a, first, rest, ha, hmeaning, s₁, s₂, hmisses⟩

/-- Why source that compiles cannot be rendered, if it cannot. -/
def renderFault? (env : Environment) (base : List Nat) (source : String) (s : RenderState) : Option RenderError :=
  match env.compile base source with
  | .error _ => none
  | .ok nodes =>
    match Node.renderAll nodes s with
    | .ok _ _ => none
    | .error e _ => some e

theorem exists_of_renderFault? {s : RenderState} {e : RenderError} (h : env.renderFault? base source s = some e) :
    ∃ nodes s', env.compile base source = .ok nodes ∧ Node.renderAll nodes s = .error e s' := by
  rw [renderFault?] at h
  split at h
  · cases h
  · rename_i nodes hcompile
    split at h
    · cases h
    · rename_i e' s' hrender
      cases h
      exact ⟨nodes, s', hcompile, hrender⟩

/-- A condition with a filter whose argument is missing; without the filter the condition would be false. -/
def missingArgumentSource : String := "\x7b% if x|default:missing %\x7dyes\x7b% else %\x7dno\x7b% endif %\x7d"

/-- A lookup that fails in the argument of a filter ends the rendering, where one that fails in its place counts as
`none`. -/
theorem missing_argument_ends_render : ∃ nodes s',
    (standard .latest).compile [0, 1] missingArgumentSource = .ok nodes ∧
      Node.renderAll nodes ⟨.ofScope [] "", .empty 0⟩ = .error (.missing "missing" "missing") s' :=
  exists_of_renderFault? (by decide +kernel)

theorem render_misses_argument_default : (standard .latest).StandardTagsOnly ∧
    (standard .latest).StandardFiltersOnly ∧ ∃ nodes s',
      (standard .latest).compile [0, 1] missingArgumentSource = .ok nodes ∧
        Node.renderAll nodes ⟨.ofScope [] "", .empty 0⟩ = .error (.missing "missing" "missing") s' ∧
        ∃ c ∈ Node.allCalls nodes, ∃ a first rest, c.argument = some a ∧ a.meaning = .path first rest := by
  have henv := standard_standardTagsOnly .latest
  have hfilters := standard_standardFiltersOnly .latest
  have hfault : (standard .latest).renderFault? [0, 1] missingArgumentSource ⟨.ofScope [] "", .empty 0⟩ =
      some (.missing "missing" "missing") := by decide +kernel
  obtain ⟨nodes, s', hcompile, hrender⟩ := exists_of_renderFault? hfault
  obtain ⟨c, hc, a, first, rest, ha, hmeaning, -⟩ := render_misses_argument henv hfilters hcompile hrender
  exact ⟨henv, hfilters, nodes, s', hcompile, hrender, c, hc, a, first, rest, ha, hmeaning⟩

end Environment

end TextTemplate
