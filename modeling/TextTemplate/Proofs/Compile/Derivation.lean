import TextTemplate.Proofs.Compile.Progress

/-!
# Derivations are runs

A body that the grammar derives is compiled token by token without failure: the run adds the nodes of the body
to those before it, loads what its `load` tags load, and leaves the stack as it was. A block is first opened,
then its sections run one after the other, and its end tag closes it. So a token list has at most one
derivation as a whole template.
-/

namespace TextTemplate

open Grammar

namespace Progress

variable {env : Environment}

/-- An empty expression compiles to nothing. -/
theorem compile_empty (lookup : FilterLookup) : ∃ e, Pipeline.compile lookup "" = .error e := ⟨_, rfl⟩

/-- A variable tag whose expression compiles adds its output. -/
theorem item_output {p : Progress} {stop : List String} {t : Token} {e : Expression} (hk : t.kind = .variable)
    (he : Pipeline.compile (env.filterLookup p.active) t.content = .ok e) :
    p.item env stop t = .ok { p with nodes := p.nodes ++ [.output e] } := by
  have hne : t.content.isEmpty = false := by
    by_contra hempty
    obtain ⟨f, hf⟩ := compile_empty (env.filterLookup p.active)
    rw [show t.content = "" by simpa using hempty, hf] at he
    cases he
  simp only [item, hk, hne, Bool.false_eq_true, if_false, he]

/-- Tokens that a block keeps from the compiler are only noted. -/
theorem run_kept {a : List Nat} {nodes : List Node} {b : OpenBlock} {outer : List OpenBlock}
    (hb : b.stage.isOpaque = true) {name : String} (hname : b.stage.awaited = [name]) (inside : List Token)
    (h : ∀ u ∈ inside, u.isBlock name = false) :
    run env inside ⟨a, nodes, b :: outer⟩ =
      .ok ⟨a, nodes, { b with stage := inside.foldl (fun stage u => stage.keep u) b.stage } :: outer⟩ := by
  induction inside generalizing b with
  | nil => rfl
  | cons u inside ih =>
    have hu : awaits (b :: outer) u = false := by
      have hblock := h u (by simp)
      simp only [awaits, hname, List.contains_cons, List.contains_nil, Bool.or_false]
      exact hblock
    have hkeep : (b.stage.keep u).isOpaque = true ∧ (b.stage.keep u).awaited = [name] := by
      rw [← hname]
      cases hs : b.stage <;> simp_all [Stage.keep, Stage.isOpaque, Stage.awaited]
    have hstep : step env ⟨a, nodes, b :: outer⟩ u =
        .ok ⟨a, nodes, { b with stage := b.stage.keep u } :: outer⟩ := by
      simp [step, hu, hb]
    rw [run_cons_ok hstep, ih hkeep.1 hkeep.2 (fun v hv => h v (by simp [hv]))]
    rfl

/-- What a `verbatim` block has kept is the source of the tokens. -/
theorem foldl_keep_verbatim (source : List String) (inside : List Token) :
    inside.foldl (fun stage u => stage.keep u) (.verbatim source) =
      Stage.verbatim (source ++ inside.map Token.raw) := by
  induction inside generalizing source with
  | nil => simp
  | cons u inside ih => rw [List.foldl_cons, Stage.keep, ih, List.map_cons, List.append_assoc, List.singleton_append]

theorem foldl_keep_skipped (inside : List Token) :
    inside.foldl (fun stage u => stage.keep u) .skipped = Stage.skipped := by
  induction inside with
  | nil => rfl
  | cons u inside ih => rw [List.foldl_cons, Stage.keep, ih]; simp

end Progress

namespace Grammar

open Progress

variable {env : Environment} {room : Nat} {B : Derives (List Node)}

/-- What is derived is run with the nodes added and the stack kept, wherever there is room for it. -/
def Runs (env : Environment) (room : Nat) (B : Derives (List Node)) : Prop :=
  ∀ {a u nodes a'}, B a u nodes a' → ∀ d blocks, blocks.length + room ≤ Environment.maxOpenTags →
    Compiles blocks → run env u ⟨a, d, blocks⟩ = .ok ⟨a', d ++ nodes, blocks⟩

/-- An end tag closes its block and adds the node to the body around it. -/
theorem run_endTag {a : List Nat} {nodes : List Node} {b : OpenBlock} {outer : List OpenBlock} {e : Token}
    {name : String} {node : Option Node} (named : e.isBlock name) (hmem : name ∈ b.stage.awaited)
    (hclosed : b.stage.resume (env.filterLookup a) nodes e = .ok (.closed node)) :
    run env [e] ⟨a, nodes, b :: outer⟩ = .ok ⟨a, b.before ++ node.toList, outer⟩ := by
  have hstep := step_awaited env a nodes b outer named hmem
  rw [hclosed] at hstep
  exact run_cons_ok hstep

/-- A body and the end tag after it close the block. -/
theorem Runs.body_endTag (hB : Runs env room B) {a a' : List Nat} {u : List Token} {nodes : List Node}
    (hu : B a u nodes a') {b : OpenBlock} {outer : List OpenBlock}
    (hroom : outer.length + 1 + room ≤ Environment.maxOpenTags) (hc : b.stage.isOpaque = false) {e : Token}
    {name : String} {node : Option Node} (named : e.isBlock name) (hmem : name ∈ b.stage.awaited)
    (hclosed : b.stage.resume (env.filterLookup a') nodes e = .ok (.closed node)) :
    run env (u ++ [e]) ⟨a, [], b :: outer⟩ = .ok ⟨a', b.before ++ node.toList, outer⟩ := by
  have hbody := hB hu [] (b :: outer) (by simpa using hroom) (by simpa [Compiles] using hc)
  rw [run_append_ok hbody]
  exact run_endTag named hmem hclosed

/-- The end of a block closes it, with the further body or without. -/
theorem Runs.ending (hB : Runs env room B) {separator : Token → Prop} {endTag : String} {a a' : List Nat}
    {w : List Token} {other : Option (List Node)} (h : Ending B separator endTag a w other a')
    {b : OpenBlock} {outer : List OpenBlock} {nodes : List Node} (next : Stage)
    (node : Option (List Node) → Node) (hroom : outer.length + 1 + room ≤ Environment.maxOpenTags)
    (hc : next.isOpaque = false) (hend : endTag ∈ b.stage.awaited) (hend' : endTag ∈ next.awaited)
    (hclosed : ∀ lookup (e : Token), e.isBlock endTag →
      b.stage.resume lookup nodes e = .ok (.closed (some (node none))))
    (hagain : ∀ lookup m, separator m → (∃ name ∈ b.stage.awaited, m.isBlock name) ∧
      b.stage.resume lookup nodes m = .ok (.again next))
    (hclosed' : ∀ lookup nodes' (e : Token), e.isBlock endTag →
      next.resume lookup nodes' e = .ok (.closed (some (node (some nodes'))))) :
    run env w ⟨a, nodes, b :: outer⟩ = .ok ⟨a', b.before ++ [node other], outer⟩ := by
  cases h with
  | without named => exact run_endTag named hend (hclosed _ _ named)
  | @withBody _ _ m e u nodes' separates body named =>
    obtain ⟨⟨name, hname, hm⟩, hresume⟩ := hagain (env.filterLookup a) m separates
    have hstep := step_awaited env a nodes b outer hm hname
    rw [hresume] at hstep
    rw [List.cons_append, run_cons_ok hstep]
    exact hB.body_endTag (b := { b with stage := next }) body hroom hc named hend' (hclosed' _ _ _ named)

/-- The `elif` branches of a block leave it in its last branch, with the branches before it complete. -/
theorem Runs.elifs (hB : Runs env room B) {a a' : List Nat} {v : List Token}
    {more : List (Condition × List Node)} (h : Elifs env B a v more a') {t : Token} {d : List Node}
    {outer : List OpenBlock} (hroom : outer.length + 1 + room ≤ Environment.maxOpenTags)
    (before : List (Condition × List Node)) (c : Condition) (nodes : List Node) :
    ∃ before' c' nodes', before' ++ [(c', nodes')] = before ++ (c, nodes) :: more ∧
      run env v ⟨a, nodes, ⟨t, .branch before c, d⟩ :: outer⟩ =
        .ok ⟨a', nodes', ⟨t, .branch before' c', d⟩ :: outer⟩ := by
  induction h generalizing before c nodes with
  | nil => exact ⟨before, c, nodes, rfl, rfl⟩
  | @cons a a₁ a₂ m u w c₁ nodes₁ more named condition body _ ih =>
    obtain ⟨before', c', nodes', heq, hrun⟩ := ih (before ++ [(c, nodes)]) c₁ nodes₁
    refine ⟨before', c', nodes', by simpa using heq, ?_⟩
    have hname : m.tagName = "elif" := (Token.isBlock_iff.mp named).2
    have hstep := step_awaited env a nodes ⟨t, .branch before c, d⟩ outer named
      (by simp [Stage.awaited])
    simp only [Stage.resume, hname, if_pos, condition] at hstep
    have hbody := hB body [] (⟨t, .branch (before ++ [(c, nodes)]) c₁, d⟩ :: outer) (by simpa using hroom)
      (by simp [Compiles, Stage.isOpaque])
    rw [List.cons_append, run_cons_ok hstep, run_append_ok hbody]
    exact hrun

/-- A block with a header read and room for it puts its frame on the stack. -/
theorem step_opens {a : List Nat} {d : List Node} {blocks : List OpenBlock} {t : Token} {k : Directive}
    {stage : Stage} (opens : Opens env a k t) (hc : Compiles blocks)
    (hroom : blocks.length < Environment.maxOpenTags)
    (hopening : k.opening env a t.tagContent = .ok (.block stage)) :
    step env ⟨a, d, blocks⟩ t = .ok ⟨a, [], ⟨t, stage, d⟩ :: blocks⟩ := by
  rw [step_eq_enter hc opens hroom, enter, hopening]

/-- A tag without a body adds its node at once. -/
theorem run_leaf {a a' : List Nat} {d : List Node} {blocks : List OpenBlock} {t : Token} {k : Directive}
    {node : Option Node} (opens : Opens env a k t) (hc : Compiles blocks)
    (hroom : blocks.length < Environment.maxOpenTags)
    (hopening : k.opening env a t.tagContent = .ok (.leaf node a')) :
    run env [t] ⟨a, d, blocks⟩ = .ok ⟨a', d ++ node.toList, blocks⟩ := by
  have hstep : step env ⟨a, d, blocks⟩ t = .ok ⟨a', d ++ node.toList, blocks⟩ := by
    rw [step_eq_enter hc opens hroom, enter, hopening]
  exact run_cons_ok hstep

/-- Every block is run as a whole: it adds its node and leaves the stack as it was. -/
theorem Runs.block (hB : Runs env room B) {a a' : List Nat} {u : List Token} {node : Option Node}
    (h : Block env B a u node a') (d : List Node) (blocks : List OpenBlock)
    (hroom : blocks.length + (room + 1) ≤ Environment.maxOpenTags) (hc : Compiles blocks) :
    run env u ⟨a, d, blocks⟩ = .ok ⟨a', d ++ node.toList, blocks⟩ := by
  have hlt : blocks.length < Environment.maxOpenTags := by omega
  have hin : blocks.length + 1 + room ≤ Environment.maxOpenTags := by omega
  cases h with
  | load opens reads => exact run_leaf opens hc hlt (by rw [Directive.opening, reads]; rfl)
  | firstOf opens reads => exact run_leaf opens hc hlt (by rw [Directive.opening, reads]; rfl)
  | symbol opens reads => exact run_leaf opens hc hlt (by rw [Directive.opening, reads]; rfl)
  | comment opens inert named =>
    rw [List.cons_append, run_cons_ok (step_opens opens hc hlt rfl), run_append_ok (run_kept rfl rfl _ inert)]
    simp only [foldl_keep_skipped]
    exact run_endTag named (by simp [Stage.awaited]) rfl
  | verbatim opens inert named =>
    rw [List.cons_append, run_cons_ok (step_opens opens hc hlt rfl), run_append_ok (run_kept rfl rfl _ inert)]
    simp only [foldl_keep_verbatim, List.nil_append]
    exact run_endTag named (by simp [Stage.awaited]) rfl
  | spaceless opens body named =>
    rw [List.cons_append, run_cons_ok (step_opens opens hc hlt rfl)]
    exact hB.body_endTag (b := ⟨_, .spacelessBody, d⟩) body hin rfl named (by simp [Stage.awaited]) rfl
  | filtered opens reads body named =>
    rw [List.cons_append, run_cons_ok (step_opens opens hc hlt (by rw [Directive.opening, reads]; rfl))]
    exact hB.body_endTag (b := ⟨_, .filteredBody _, d⟩) body hin rfl named (by simp [Stage.awaited]) rfl
  | binding opens reads body named =>
    rw [List.cons_append, run_cons_ok (step_opens opens hc hlt (by rw [Directive.opening, reads]; rfl))]
    exact hB.body_endTag (b := ⟨_, .bindingBody _, d⟩) body hin rfl named (by simp [Stage.awaited]) rfl
  | @loop _ _ _ t u w header sequence nodes empty opens reads body ending =>
    rw [List.cons_append, run_cons_ok (step_opens opens hc hlt (by rw [Directive.opening, reads]; rfl)),
      run_append_ok (hB body [] _ (by simpa using hin) (by simp [Compiles, Stage.isOpaque]))]
    exact hB.ending ending (b := ⟨t, .loopBody header sequence, d⟩) (.loopEmpty header sequence nodes)
      (fun empty => .loop header.names sequence header.reversed nodes (empty.getD []))
      hin rfl (by simp [Stage.awaited]) (by simp [Stage.awaited])
      (fun _ e he => by simp_all [Token.isBlock, Stage.resume])
      (fun _ m hm => by simp_all [Token.isBlock, Stage.resume, Stage.awaited])
      (fun _ _ _ _ => rfl)
  | @equality _ _ _ t u w left right nodes other opens reads body ending =>
    rw [List.cons_append, run_cons_ok (step_opens opens hc hlt (by rw [Directive.opening, reads]; rfl)),
      run_append_ok (hB body [] _ (by simpa using hin) (by simp [Compiles, Stage.isOpaque]))]
    exact hB.ending ending (b := ⟨t, .whenTrue false left right, d⟩) (.whenFalse false left right nodes)
      (fun other => .equality false left right nodes (other.getD []))
      hin rfl (by simp [Stage.awaited]) (by simp [Stage.awaited])
      (fun _ e he => by simp_all [Token.isBlock, Stage.resume])
      (fun _ m hm => by simp_all [Token.isBlock, Stage.resume, Stage.awaited])
      (fun _ _ _ _ => rfl)
  | @inequality _ _ _ t u w left right nodes other opens reads body ending =>
    rw [List.cons_append, run_cons_ok (step_opens opens hc hlt (by rw [Directive.opening, reads]; rfl)),
      run_append_ok (hB body [] _ (by simpa using hin) (by simp [Compiles, Stage.isOpaque]))]
    exact hB.ending ending (b := ⟨t, .whenTrue true left right, d⟩) (.whenFalse true left right nodes)
      (fun other => .equality true left right nodes (other.getD []))
      hin rfl (by simp [Stage.awaited]) (by simp [Stage.awaited])
      (fun _ e he => by simp_all [Token.isBlock, Stage.resume])
      (fun _ m hm => by simp_all [Token.isBlock, Stage.resume, Stage.awaited])
      (fun _ _ _ _ => rfl)
  | @conditional _ _ a₂ _ t u v w c nodes more otherwise opens reads body elifs ending =>
    rw [List.append_assoc, List.cons_append,
      run_cons_ok (step_opens opens hc hlt (by rw [Directive.opening, reads]; rfl)),
      run_append_ok (hB body [] _ (by simpa using hin) (by simp [Compiles, Stage.isOpaque]))]
    obtain ⟨before, c', nodes', heq, hrun⟩ := hB.elifs elifs (t := t) (d := d) hin [] c nodes
    rw [List.nil_append, run_append_ok hrun]
    have heq' : before ++ [(c', nodes')] = (c, nodes) :: more := by simpa using heq
    exact hB.ending ending (b := ⟨t, .branch before c', d⟩) (.otherwise (before ++ [(c', nodes')]))
      (fun otherwise => .choice ((c, nodes) :: more) otherwise)
      hin rfl (by simp [Stage.awaited]) (by simp [Stage.awaited])
      (fun _ e he => by simp_all [Token.isBlock, Stage.resume])
      (fun _ m hm => by simp_all [Token.isBlock, Stage.resume, Stage.awaited])
      (fun _ _ _ _ => by rw [Stage.resume, heq'])

/-- The items of a body run one after the other, given that its blocks do. -/
theorem run_items {Blk : Derives (Option Node)} (hBlk : ∀ {a u node a'}, Blk a u node a' → ∀ d blocks,
      blocks.length + room ≤ Environment.maxOpenTags → Compiles blocks →
      run env u ⟨a, d, blocks⟩ = .ok ⟨a', d ++ node.toList, blocks⟩) : Runs env room (Items env Blk) := by
  intro a u nodes a' h d blocks hroom hc
  induction h generalizing d with
  | nil => rw [List.append_nil]; rfl
  | @text a a' t ts nodes kind _ ih =>
    have hstep : step env ⟨a, d, blocks⟩ t = .ok ⟨a, d ++ [.text t.content], blocks⟩ := by
      rw [step_eq_item hc (awaits_eq_false_of_kind (by simp [kind])), item, kind]
    rw [run_cons_ok hstep, ih, List.append_assoc, List.singleton_append]
  | @output a a' t ts e nodes kind compiled _ ih =>
    have hstep : step env ⟨a, d, blocks⟩ t = .ok ⟨a, d ++ [.output e], blocks⟩ := by
      rw [step_eq_item hc (awaits_eq_false_of_kind (by simp [kind])), item_output kind compiled]
    rw [run_cons_ok hstep, ih, List.append_assoc, List.singleton_append]
  | @comment a a' t ts nodes kind _ ih =>
    have hstep : step env ⟨a, d, blocks⟩ t = .ok ⟨a, d, blocks⟩ := by
      rw [step_eq_item hc (awaits_eq_false_of_kind (by simp [kind])), item, kind]
    rw [run_cons_ok hstep, ih]
  | @block a a₁ a₂ u ts node nodes block _ ih =>
    rw [run_append_ok (hBlk block d blocks hroom hc), ih, List.append_assoc]

/-- Every derivation of a body is a run. -/
theorem body_runs (env : Environment) (room : Nat) : Runs env room (Body env room) := by
  induction room with
  | zero => exact run_items (fun h => h.elim)
  | succ room ih => exact run_items (fun h d blocks hroom hc => ih.block h d blocks hroom hc)

/-- Tokens are derived as a whole template in at most one way. -/
theorem body_unique {a a' a'' : List Nat} {u : List Token} {nodes nodes' : List Node}
    (hroom : room ≤ Environment.maxOpenTags) (h : Body env room a u nodes a')
    (h' : Body env room a u nodes' a'') : nodes = nodes' ∧ a' = a'' := by
  have hc : Compiles [] := by simp [Compiles]
  have hrun := body_runs env room h [] [] (by simpa using hroom) hc
  rw [body_runs env room h' [] [] (by simpa using hroom) hc] at hrun
  simp only [List.nil_append, Except.ok.injEq, Progress.mk.injEq, and_true] at hrun
  exact ⟨hrun.2.symm, hrun.1.symm⟩

end Grammar

end TextTemplate
