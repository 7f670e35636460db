import TextTemplate.Filter.Standard
import TextTemplate.Node.Render
import TextTemplate.Proofs.Expression.Literals

/-!
# Pipelines put together

A chain of filter calls may be written behind an expression or behind another chain, with a bar between the two. A bar
ends every part, so neither text is read in another way than on its own: the calls of the second come after those of
the first.

Resolving then takes the value of the expression through the chain. The one exception is an operand that is missing
where the context has a text for that: the text is the value of the whole expression, past all its filters.
-/

namespace TextTemplate

namespace FilterCall

/-- A value runs through the calls of two chains one chain after the other. -/
theorem applyAll_append (calls calls' : List FilterCall) (v : Value) :
    applyAll (calls ++ calls') v = applyAll calls v >>= applyAll calls' := by
  induction calls generalizing v with
  | nil => rfl
  | cons c rest ih =>
    rw [List.cons_append, applyAll, applyAll, bind_assoc]
    simp only [ih]

end FilterCall

namespace Expression

/-- The expression with a chain written behind it. -/
def piped (e : Expression) (chain : String) (calls : List FilterCall) : Expression :=
  ⟨e.source ++ "|" ++ chain, e.operand, e.calls ++ calls⟩

variable {e : Expression} {s : RenderState}

/-- An expression with a chain behind it takes the value of the expression through the chain, unless its operand is
missing. -/
theorem resolve_piped (hoperand : ∀ path segment s', e.operand.resolve s ≠ .error (.missing path segment) s')
    (chain : String) (calls : List FilterCall) (onMissing : OnMissing) :
    (e.piped chain calls).resolve onMissing s = (e.resolve onMissing >>= FilterCall.applyAll calls) s := by
  rw [run_bind, resolve, resolve, piped]
  cases hresult : e.operand.resolve s with
  | ok v s' => simp only [FilterCall.applyAll_append, run_bind]
  | error failure s' =>
    cases failure with
    | missing path segment => exact absurd hresult (hoperand path segment s')
    | _ => rfl

/-- A text is written as it is. -/
theorem render_of_text {t : String} {s' : RenderState} (h : e.resolve .substitute s = .ok (.text t) s') :
    e.render s = .ok t s' := by
  rw [render, run_bind_ok h]
  rfl

end Expression

namespace Node

/-- A block that filters a single output takes the text of the output through its chain. -/
theorem render_filtered_output {e : Expression} {s s' : RenderState} {t : String}
    (hvalue : e.resolve .substitute s = .ok (.text t) s') (calls : List FilterCall) :
    (filtered calls [output e]).render s =
      (FilterCall.applyAll calls (.text t) >>= fun v => RenderM.onValues v.write) s' := by
  have hbody : renderAll [output e] s = .ok t s' := by
    rw [renderAll, render, run_bind_ok (Expression.render_of_text hvalue), renderAll]
    exact congrArg (EStateM.Result.ok · s') String.append_empty
  rw [render, run_bind_ok hbody]

end Node

namespace Pipeline

variable {lookup : FilterLookup}

/-- A chain compiles as the filter calls that it is with a bar in front. -/
theorem compileChain_eq_ok {source : String} {calls : List FilterCall}
    (h : compileChain lookup source = .ok calls) : ∃ steps, StepsText ('|' :: source.toList) steps ∧
      List.Forall₂ (Step.Means lookup) steps calls := by
  rw [compileChain] at h
  split_ifs at h
  · cases h
  · exact compileSteps_eq_ok_iff.mp h

/-- Two chains with a bar between them are one chain. -/
theorem compileChain_append {first second : String} {calls calls' : List FilterCall}
    (h : compileChain lookup first = .ok calls) (h' : compileChain lookup second = .ok calls') :
    compileChain lookup (first ++ "|" ++ second) = .ok (calls ++ calls') := by
  obtain ⟨steps, hsteps, hmeans⟩ := compileChain_eq_ok h
  obtain ⟨steps', hsteps', hmeans'⟩ := compileChain_eq_ok h'
  have hjoined : '|' :: (first ++ "|" ++ second).toList = '|' :: first.toList ++ '|' :: second.toList := by simp
  rw [compileChain, if_neg (by simp), hjoined]
  exact compileSteps_eq_ok_iff.mpr ⟨steps ++ steps', hsteps.append hsteps', List.rel_append hmeans hmeans'⟩

/-- A chain may be written behind an expression. -/
theorem compile_piped {source chain : String} {e : Expression} {calls : List FilterCall}
    (h : compile lookup source = .ok e) (h' : compileChain lookup chain = .ok calls) :
    compile lookup (source ++ "|" ++ chain) = .ok (e.piped chain calls) := by
  obtain ⟨steps, hsteps, hmeans⟩ := compileChain_eq_ok h'
  have hjoined : source ++ "|" ++ chain = source ++ String.ofList ('|' :: chain.toList) :=
    String.toList_inj.mp (by simp)
  rw [Expression.piped, (compile_eq_ok h).1, hjoined]
  exact compile_append h hsteps hmeans

/-- Pipelines compose. A chain may be written behind an expression, which keeps its operand and takes the calls of the
chain behind its own; and behind another chain, with the calls of both in order. Wherever the operand of the expression
resolves, the longer expression resolves as the chain does for the value of the expression, to the same value or with
the same failure; if that value is a text, a block that filters the expression by the chain writes what the longer
expression writes. -/
theorem compile_joined {source chain chain' : String} {e : Expression} {calls calls' : List FilterCall}
    (he : compile lookup source = .ok e) (hchain : compileChain lookup chain = .ok calls)
    (hchain' : compileChain lookup chain' = .ok calls') :
    compileChain lookup (chain ++ "|" ++ chain') = .ok (calls ++ calls') ∧
    ∃ joined, compile lookup (source ++ "|" ++ chain) = .ok joined ∧ joined.operand = e.operand ∧
      joined.calls = e.calls ++ calls ∧
      ∀ s v s', e.operand.resolve s = .ok v s' →
        (∀ onMissing, joined.resolve onMissing s = (e.resolve onMissing >>= FilterCall.applyAll calls) s) ∧
        ∀ t s'', e.resolve .substitute s = .ok (.text t) s'' →
          (Node.filtered calls [.output e]).render s = (Node.output joined).render s := by
  refine ⟨compileChain_append hchain hchain', _, compile_piped he hchain, rfl, rfl, fun s v s' hoperand => ?_⟩
  have hresolve (onMissing : Expression.OnMissing) : (e.piped chain calls).resolve onMissing s =
      (e.resolve onMissing >>= FilterCall.applyAll calls) s := by
    refine Expression.resolve_piped (fun path segment s'' hmissing => ?_) chain calls onMissing
    rw [hoperand] at hmissing
    cases hmissing
  refine ⟨hresolve, fun t s'' hvalue => ?_⟩
  rw [Node.render_filtered_output hvalue, Node.render, Expression.render, run_bind, run_bind, hresolve,
    run_bind_ok hvalue]

/-- The standard filters. -/
def standardLookup : FilterLookup := fun name =>
  match StandardFilter.all.lookup name with
  | some f => .ok f
  | none => .error (.ofCause (.unknownFilter name))

/-- The text that is found, if it is one. -/
def foundText? : EStateM.Result RenderError RenderState Value → Option String
  | .ok (.text t) _ => some t
  | _ => none

theorem eq_ok_of_foundText? {r : EStateM.Result RenderError RenderState Value} {t : String}
    (h : foundText? r = some t) : ∃ s, r = .ok (.text t) s := by
  unfold foundText? at h
  split at h
  · cases h
    exact ⟨_, rfl⟩
  · cases h

/-- An expression with a bar in a string, a chain with blanks around its bars, and another chain. For an empty text
the expression has a value that holds a bar, and the first chain takes it away. -/
theorem compile_joined_spaced :
    let s : RenderState := ⟨.ofScope [("x", .text "")] "", .empty 0⟩
    ∃ e calls calls' joined, compile standardLookup "x|default:\"a|b\"" = .ok e ∧
      compileChain standardLookup " cut:'|' | upper" = .ok calls ∧ compileChain standardLookup "lower" = .ok calls' ∧
      compileChain standardLookup " cut:'|' | upper|lower" = .ok (calls ++ calls') ∧
      compile standardLookup "x|default:\"a|b\"| cut:'|' | upper" = .ok joined ∧
      foundText? (e.operand.resolve s) = some "" ∧ foundText? (e.resolve .substitute s) = some "a|b" ∧
      foundText? (joined.resolve .substitute s) = some "AB" ∧
      (Node.filtered calls [.output e]).render s = (Node.output joined).render s := by
  intro s
  have hread (source first text : String) (h : ((compile standardLookup source).toOption.map fun e =>
      (foundText? (e.operand.resolve s), foundText? (e.resolve .substitute s))) = some (some first, some text)) :
      ∃ e, compile standardLookup source = .ok e ∧ foundText? (e.operand.resolve s) = some first ∧
        foundText? (e.resolve .substitute s) = some text := by
    obtain ⟨e, he, hvalues⟩ := Option.map_eq_some_iff.mp h
    cases hc : compile standardLookup source with
    | error failure =>
      rw [hc] at he
      cases he
    | ok found =>
      rw [hc] at he
      cases he
      exact ⟨e, rfl, congrArg Prod.fst hvalues, congrArg Prod.snd hvalues⟩
  have hchain (source : String) (h : (compileChain standardLookup source).isOk = true) :
      ∃ calls, compileChain standardLookup source = .ok calls := by
    cases hc : compileChain standardLookup source with
    | error failure =>
      rw [hc] at h
      cases h
    | ok calls => exact ⟨calls, rfl⟩
  obtain ⟨e, he, hfirst, hvalue⟩ := hread "x|default:\"a|b\"" "" "a|b" (by decide +kernel)
  obtain ⟨joined, hjoined, -, htext⟩ := hread "x|default:\"a|b\"| cut:'|' | upper" "" "AB" (by decide +kernel)
  obtain ⟨calls, hcalls⟩ := hchain " cut:'|' | upper" (by decide +kernel)
  obtain ⟨calls', hcalls'⟩ := hchain "lower" (by decide +kernel)
  obtain ⟨hlonger, joined', hjoined', -, -, hresolve⟩ := compile_joined he hcalls hcalls'
  obtain rfl : joined = joined' := Except.ok.inj (hjoined.symm.trans hjoined')
  obtain ⟨s₁, hfound⟩ := eq_ok_of_foundText? hfirst
  obtain ⟨s₂, hfound'⟩ := eq_ok_of_foundText? hvalue
  exact ⟨e, calls, calls', joined, he, hcalls, hcalls', hlonger, hjoined, hfirst, hvalue, htext,
    (hresolve s _ _ hfound).2 _ _ hfound'⟩

end Pipeline

end TextTemplate
