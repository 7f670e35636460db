import TextTemplate.Proofs.Compile.Composition
import TextTemplate.Proofs.Compile.Derivation
import TextTemplate.Proofs.Compile.Unplaced
import TextTemplate.Proofs.Token.Lines

/-!
# Templates compiled side by side

Two runs of the compiler over the same tokens, on other lines and after beginnings that differ. The bodies of the
blocks that are open write the same in both runs, and the outermost body of the second one writes a text first. So it
stays from token to token: both runs go on in the same way or fail in the same way, and the templates that they end in
differ in that text only.
-/

namespace TextTemplate

/-! ## Nodes that write the same -/

namespace Node

/-- Rendering the second nodes writes `lead` and then what the first ones write, with all that they do besides. -/
def WritesAfter (lead : String) (nodes nodes' : List Node) : Prop :=
  renderAll nodes' = (do return lead ++ (← renderAll nodes))

/-- Rendering the nodes writes the same, with the same effects. -/
def SameOutput (nodes nodes' : List Node) : Prop := renderAll nodes' = renderAll nodes

variable {lead : String} {nodes nodes' more more' : List Node}

theorem writesAfter_empty_iff : WritesAfter "" nodes nodes' ↔ SameOutput nodes nodes' := by
  simp only [WritesAfter, SameOutput, String.empty_append, bind_pure]

theorem WritesAfter.append (h : WritesAfter lead nodes nodes') (hmore : SameOutput more more') :
    WritesAfter lead (nodes ++ more) (nodes' ++ more') := by
  rw [WritesAfter] at h ⊢
  rw [renderAll_append, renderAll_append, h, hmore]
  simp only [bind_assoc, pure_bind, String.append_assoc]

namespace SameOutput

theorem refl (nodes : List Node) : SameOutput nodes nodes := rfl

theorem append (h : SameOutput nodes nodes') (hmore : SameOutput more more') :
    SameOutput (nodes ++ more) (nodes' ++ more') :=
  writesAfter_empty_iff.mp ((writesAfter_empty_iff.mpr h).append hmore)

/-- A node is as good as another that is rendered in the same way. -/
theorem singleton {n n' : Node} (h : n'.render = n.render) : SameOutput [n] [n'] := by
  simp only [SameOutput, renderAll, h]

theorem loop (names : List String) (sequence : Expression) (reversed : Bool) (h : SameOutput nodes nodes')
    (hmore : SameOutput more more') :
    SameOutput [.loop names sequence reversed nodes more] [.loop names sequence reversed nodes' more'] :=
  singleton (by rw [render, render, h, hmore])

theorem binding (found : List (String × Expression)) (h : SameOutput nodes nodes') :
    SameOutput [.binding found nodes] [.binding found nodes'] :=
  singleton (by rw [render, render, h])

theorem equality (negated : Bool) (left right : Expression) (h : SameOutput nodes nodes')
    (hmore : SameOutput more more') :
    SameOutput [.equality negated left right nodes more] [.equality negated left right nodes' more'] :=
  singleton (by rw [render, render, h, hmore])

theorem spaceless (h : SameOutput nodes nodes') : SameOutput [.spaceless nodes] [.spaceless nodes'] :=
  singleton (by rw [render, render, h])

theorem filtered (calls : List FilterCall) (h : SameOutput nodes nodes') :
    SameOutput [.filtered calls nodes] [.filtered calls nodes'] :=
  singleton (by rw [render, render, h])

end SameOutput

/-- Branches with the same conditions whose bodies write the same. -/
def SameBranches : List (Condition × List Node) → List (Condition × List Node) → Prop :=
  List.Forall₂ fun b b' => b'.1 = b.1 ∧ SameOutput b.2 b'.2

variable {branches branches' : List (Condition × List Node)} {otherwise otherwise' : Option (List Node)}

theorem SameBranches.snoc (h : SameBranches branches branches') (c : Condition) (hbody : SameOutput nodes nodes') :
    SameBranches (branches ++ [(c, nodes)]) (branches' ++ [(c, nodes')]) :=
  List.rel_append h (.cons ⟨rfl, hbody⟩ .nil)

theorem SameBranches.renderBranches_eq (h : SameBranches branches branches') (m : RenderM String) :
    renderBranches m branches' = renderBranches m branches := by
  induction h with
  | nil => rfl
  | @cons b b' _ _ hb _ ih =>
    obtain ⟨c, body⟩ := b
    obtain ⟨c', body'⟩ := b'
    obtain ⟨rfl, hbody⟩ := hb
    rw [renderBranches, renderBranches, ih, hbody]

theorem SameBranches.choice (h : SameBranches branches branches') (ho : Option.Rel SameOutput otherwise otherwise') :
    SameOutput [.choice branches otherwise] [.choice branches' otherwise'] := by
  have hotherwise : renderOption otherwise' = renderOption otherwise := by
    cases ho with
    | none => rfl
    | some hbody => rw [renderOption, renderOption, hbody]
  exact .singleton (by rw [render, render, hotherwise, h.renderBranches_eq])

end Node

/-! ## Results that correspond -/

variable {L : Nat → Nat → Prop} {α β γ δ : Type} {R : α → β → Prop} {S : γ → δ → Prop}

/-- Two results that are both answers, related by `R`, or the same failure on lines that are related by `L`. -/
inductive Corresponds (L : Nat → Nat → Prop) (R : α → β → Prop) :
    Except CompileError α → Except CompileError β → Prop
  | ok {a : α} {b : β} (related : R a b) : Corresponds L R (.ok a) (.ok b)
  | error {e e' : CompileError} (moved : e.Moved L e') : Corresponds L R (.error e) (.error e')

theorem Corresponds.bind {r : Except CompileError α} {r' : Except CompileError β} {f : α → Except CompileError γ}
    {f' : β → Except CompileError δ} (h : Corresponds L R r r') (hf : ∀ a b, R a b → Corresponds L S (f a) (f' b)) :
    Corresponds L S (r >>= f) (r' >>= f') := by
  cases h with
  | ok related => exact hf _ _ related
  | error moved => exact .error moved

/-- Where the first result is an answer, so is the second one. -/
theorem Corresponds.exists_ok {r : Except CompileError α} {r' : Except CompileError β} {a : α}
    (h : Corresponds L R r r') (hr : r = .ok a) : ∃ b, r' = .ok b ∧ R a b := by
  subst hr
  cases h with
  | ok related => exact ⟨_, rfl, related⟩

/-- A failure without a line gets that of the token. -/
theorem CompileError.Unplaced.moved {e : CompileError} (h : e.Unplaced) {line line' : Nat} (hlines : L line line') :
    (e.atLine line).Moved L (e.atLine line') := by
  obtain ⟨cause, _⟩ := e
  obtain rfl : _ = none := h.line_eq
  have huser := CompileCause.isUserError_of_isOverContent h.overContent
  simp only [atLine, huser, Option.isNone_none, Bool.and_self, if_true]
  exact .mk cause hlines

/-! ## Blocks -/

open Node

/-- What an open block has compiled so far writes the same. -/
inductive Stage.Alike : Stage → Stage → Prop
  | branch {before before' : List (Condition × List Node)} (c : Condition) (same : SameBranches before before') :
    Alike (.branch before c) (.branch before' c)
  | otherwise {branches branches' : List (Condition × List Node)} (same : SameBranches branches branches') :
    Alike (.otherwise branches) (.otherwise branches')
  | loopBody (header : Header.Loop) (sequence : Expression) :
    Alike (.loopBody header sequence) (.loopBody header sequence)
  | loopEmpty (header : Header.Loop) (sequence : Expression) {nodes nodes' : List Node}
    (same : SameOutput nodes nodes') :
    Alike (.loopEmpty header sequence nodes) (.loopEmpty header sequence nodes')
  | bindingBody (found : List (String × Expression)) : Alike (.bindingBody found) (.bindingBody found)
  | whenTrue (negated : Bool) (left right : Expression) :
    Alike (.whenTrue negated left right) (.whenTrue negated left right)
  | whenFalse (negated : Bool) (left right : Expression) {nodes nodes' : List Node} (same : SameOutput nodes nodes') :
    Alike (.whenFalse negated left right nodes) (.whenFalse negated left right nodes')
  | spacelessBody : Alike .spacelessBody .spacelessBody
  | filteredBody (calls : List FilterCall) : Alike (.filteredBody calls) (.filteredBody calls)
  | skipped : Alike .skipped .skipped
  | verbatim (source : List String) : Alike (.verbatim source) (.verbatim source)

/-- What becomes of a block writes the same. -/
inductive Resumed.Alike : Resumed → Resumed → Prop
  | again {stage stage' : Stage} (alike : stage.Alike stage') : Alike (.again stage) (.again stage')
  | closed {node node' : Option Node} (same : SameOutput node.toList node'.toList) :
    Alike (.closed node) (.closed node')

namespace Stage.Alike

variable {stage stage' : Stage} {t t' : Token} {nodes nodes' : List Node}

theorem refl (stage : Stage) : stage.Alike stage := by
  have hbranches (branches : List (Condition × List Node)) : SameBranches branches branches :=
    List.forall₂_same.mpr fun b _ => ⟨rfl, .refl b.2⟩
  cases stage with
  | branch before c => exact .branch c (hbranches before)
  | otherwise branches => exact .otherwise (hbranches branches)
  | loopBody header sequence => exact .loopBody header sequence
  | loopEmpty header sequence nodes => exact .loopEmpty header sequence (.refl nodes)
  | bindingBody found => exact .bindingBody found
  | whenTrue negated left right => exact .whenTrue negated left right
  | whenFalse negated left right nodes => exact .whenFalse negated left right (.refl nodes)
  | spacelessBody => exact .spacelessBody
  | filteredBody calls => exact .filteredBody calls
  | skipped => exact .skipped
  | verbatim source => exact .verbatim source

theorem awaited_eq (h : stage.Alike stage') : stage'.awaited = stage.awaited := by
  cases h with
  | whenTrue negated | whenFalse negated => cases negated <;> rfl
  | _ => rfl

theorem isOpaque_eq (h : stage.Alike stage') : stage'.isOpaque = stage.isOpaque := by cases h <;> rfl

/-- Both keep the source of the token, or nothing. -/
theorem keep (h : stage.Alike stage') (ht : t.Moved L t') : (stage.keep t).Alike (stage'.keep t') := by
  cases h with
  | verbatim source =>
    rw [Stage.keep, Stage.keep, ht.raw_eq]
    exact .refl _
  | branch c same => exact .branch c same
  | otherwise same => exact .otherwise same
  | loopEmpty header sequence same => exact .loopEmpty header sequence same
  | whenFalse negated left right same => exact .whenFalse negated left right same
  | _ => exact .refl _

/-- Both blocks go on or end in the same way, or fail over the terminator. -/
theorem resume (h : stage.Alike stage') (hnodes : SameOutput nodes nodes') (ht : t.Moved L t') (env : Environment)
    (active : List Nat) : Corresponds L Resumed.Alike (stage.resume (env.filterLookup active) nodes t)
      (stage'.resume (env.filterLookup active) nodes' t') := by
  cases h with
  | branch c same =>
    rw [Stage.resume, Stage.resume, ht.tagName_eq, ht.tagContent_eq]
    split_ifs
    · cases hread : HeaderReader.condition (env.filterLookup active) "elif" t.tagContent with
      | ok c' => exact .ok (.again (.branch c' (same.snoc c hnodes)))
      | error e =>
        have hunplaced := HeaderReader.condition_failsUnplaced (env.filterLookup_failsUnplaced active) _ _ e hread
        exact .error (hunplaced.moved ht.lines)
    · exact .ok (.again (.otherwise (same.snoc c hnodes)))
    · exact .error (.mk _ ht.lines)
    · exact .ok (.closed ((same.snoc c hnodes).choice .none))
  | otherwise same => exact .ok (.closed (same.choice (.some hnodes)))
  | loopBody header sequence =>
    rw [Stage.resume, Stage.resume, ht.tagName_eq]
    split_ifs
    · exact .ok (.again (.loopEmpty header sequence hnodes))
    · exact .ok (.closed (.loop _ _ _ hnodes (.refl [])))
  | loopEmpty header sequence same => exact .ok (.closed (.loop _ _ _ same hnodes))
  | bindingBody found => exact .ok (.closed (.binding found hnodes))
  | whenTrue negated left right =>
    rw [Stage.resume, Stage.resume, ht.tagName_eq]
    split_ifs
    · exact .ok (.again (.whenFalse negated left right hnodes))
    · exact .ok (.closed (.equality negated left right hnodes (.refl [])))
  | whenFalse negated left right same => exact .ok (.closed (.equality negated left right same hnodes))
  | spacelessBody => exact .ok (.closed hnodes.spaceless)
  | filteredBody calls => exact .ok (.closed (hnodes.filtered calls))
  | skipped => exact .ok (.closed (.refl []))
  | verbatim source => exact .ok (.closed (.refl _))

end Stage.Alike

/-! ## Headers -/

theorem Environment.loadAll_failsUnplaced (env : Environment) (names : List String) (active : List Nat) :
    FailsUnplaced (env.loadAll names active) := by
  induction names generalizing active with
  | nil => exact .ok _
  | cons name rest ih =>
    rw [loadAll]
    split
    · exact .ofCause rfl
    · exact ih _

/-- A header that cannot be read fails without a line. -/
theorem Directive.opening_failsUnplaced (env : Environment) (active : List Nat) (content : String) (d : Directive) :
    FailsUnplaced (d.opening env active content) := by
  have hlookup := env.filterLookup_failsUnplaced active
  have hload : FailsUnplaced (HeaderReader.load env active content) := by
    rw [HeaderReader.load]
    split
    · exact .ofCause rfl
    · exact env.loadAll_failsUnplaced _ active
  cases d with
  | comment | verbatim | spaceless => exact .ok _
  | load => exact .bind hload fun _ => .ok _
  | conditional => exact .bind (HeaderReader.condition_failsUnplaced hlookup _ _) fun _ => .ok _
  | loop => exact .bind (HeaderReader.loop_failsUnplaced hlookup _) fun _ => .ok _
  | binding => exact .bind (HeaderReader.bindings_failsUnplaced hlookup _) fun _ => .ok _
  | equality | inequality => exact .bind (HeaderReader.operands_failsUnplaced hlookup _ _) fun _ => .ok _
  | firstOf => exact .bind (HeaderReader.candidates_failsUnplaced hlookup _) fun _ => .ok _
  | symbol => exact .bind (HeaderReader.symbol_failsUnplaced _) fun _ => .ok _
  | filtered => exact .bind (Pipeline.compileChain_failsUnplaced hlookup _) fun _ => .ok _

/-! ## Runs side by side -/

/-- The body that is being compiled and the open blocks around it, on either side. All bodies write the same, but for
the outermost one, which writes `lead` first on the second side. -/
inductive Nested (L : Nat → Nat → Prop) (lead : String) :
    List Node → List OpenBlock → List Node → List OpenBlock → Prop
  | outermost {nodes nodes' : List Node} (after : WritesAfter lead nodes nodes') : Nested L lead nodes [] nodes' []
  | inside {nodes nodes' : List Node} {b b' : OpenBlock} {outer outer' : List OpenBlock}
    (same : SameOutput nodes nodes') (opener : b.opener.Moved L b'.opener) (stage : b.stage.Alike b'.stage)
    (around : Nested L lead b.before outer b'.before outer') : Nested L lead nodes (b :: outer) nodes' (b' :: outer')

namespace Nested

variable {lead : String} {nodes nodes' more more' : List Node} {blocks blocks' : List OpenBlock} {t t' : Token}

/-- Bodies and blocks are like themselves. -/
theorem refl (hL : ∀ n, L n n) (nodes : List Node) (blocks : List OpenBlock) :
    Nested L "" nodes blocks nodes blocks := by
  induction blocks generalizing nodes with
  | nil => exact .outermost (writesAfter_empty_iff.mpr (.refl nodes))
  | cons b outer ih => exact .inside (.refl nodes) (.refl hL b.opener) (.refl b.stage) (ih b.before)

theorem append (h : Nested L lead nodes blocks nodes' blocks') (hmore : SameOutput more more') :
    Nested L lead (nodes ++ more) blocks (nodes' ++ more') blocks' := by
  cases h with
  | outermost after => exact .outermost (after.append hmore)
  | inside same opener stage around => exact .inside (same.append hmore) opener stage around

theorem length_eq (h : Nested L lead nodes blocks nodes' blocks') : blocks'.length = blocks.length := by
  induction h with
  | outermost _ => rfl
  | inside _ _ _ _ ih => rw [List.length_cons, List.length_cons, ih]

end Nested

namespace Progress

/-- The same progress on either side, but for what the outermost body writes first on the second one. -/
structure Alike (L : Nat → Nat → Prop) (lead : String) (p p' : Progress) : Prop where
  active_eq : p'.active = p.active
  nested : Nested L lead p.nodes p.blocks p'.nodes p'.blocks

variable {lead : String} {env : Environment} {R : Progress → Progress → Prop} {p p' : Progress} {t t' : Token}

theorem Alike.refl (hL : ∀ n, L n n) (p : Progress) : p.Alike L "" p := ⟨rfl, .refl hL p.nodes p.blocks⟩

/-- Adding the same to the body that is being compiled keeps both sides alike. -/
theorem Alike.append (h : p.Alike L lead p') (active : List Nat) {more more' : List Node}
    (hmore : SameOutput more more') :
    Alike L lead ⟨active, p.nodes ++ more, p.blocks⟩ ⟨active, p'.nodes ++ more', p'.blocks⟩ :=
  ⟨rfl, h.nested.append hmore⟩

/-- Both sides are related by `R` after they have added the same nodes or opened the same block. -/
structure InStep (R : Progress → Progress → Prop) (t t' : Token) (p p' : Progress) : Prop where
  active_eq : p'.active = p.active
  length_eq : p'.blocks.length = p.blocks.length
  add : ∀ active more, R ⟨active, p.nodes ++ more, p.blocks⟩ ⟨active, p'.nodes ++ more, p'.blocks⟩
  opens : ∀ stage, R ⟨p.active, [], ⟨t, stage, p.nodes⟩ :: p.blocks⟩
    ⟨p.active, [], ⟨t', stage, p'.nodes⟩ :: p'.blocks⟩

theorem InStep.enter (h : InStep R t t' p p') (ht : t.Moved L t') (d : Directive) :
    Corresponds L R (p.enter env d t) (p'.enter env d t') := by
  rw [Progress.enter, Progress.enter, h.active_eq, ht.tagContent_eq]
  cases hopening : d.opening env p.active t.tagContent with
  | error e => exact .error ((d.opening_failsUnplaced env _ _ e hopening).moved ht.lines)
  | ok opening =>
    cases opening with
    | leaf node active => exact .ok (h.add active _)
    | block stage => exact .ok (h.opens stage)

/-- A token that ends nothing adds nodes or opens a block, or fails in the same way on both sides. -/
theorem InStep.item (h : InStep R t t' p p') (ht : t.Moved L t') (stop : List String) :
    Corresponds L R (p.item env stop t) (p'.item env stop t') := by
  have hself : R p p' := by
    have hsame := h.add p.active []
    rw [List.append_nil, List.append_nil] at hsame
    nth_rewrite 2 [← h.active_eq] at hsame
    exact hsame
  rw [Progress.item, Progress.item, ht.kind_eq, ht.content_eq, ht.tagName_eq, h.active_eq, h.length_eq]
  cases t.kind with
  | text => exact .ok (h.add p.active _)
  | «variable» =>
    dsimp only
    split_ifs
    · exact .error (.mk _ ht.lines)
    · cases hcompile : Pipeline.compile (env.filterLookup p.active) t.content with
      | ok e => exact .ok (h.add p.active _)
      | error e =>
        have hunplaced := Pipeline.compile_failsUnplaced (env.filterLookup_failsUnplaced _) _ e hcompile
        exact .error (hunplaced.moved ht.lines)
  | comment => exact .ok hself
  | block =>
    dsimp only
    split_ifs
    · exact .error (.mk _ ht.lines)
    · cases env.directive? p.active t.tagName with
      | none => exact .error (.mk _ ht.lines)
      | some d => exact .error (.mk _ ht.lines)
    · cases env.directive? p.active t.tagName with
      | none => exact .error (.mk _ ht.lines)
      | some d => exact h.enter ht d

theorem Alike.inStep (h : p.Alike L lead p') (ht : t.Moved L t') : InStep (Alike L lead) t t' p p' where
  active_eq := h.active_eq
  length_eq := h.nested.length_eq
  add active more := h.append active (.refl more)
  opens stage := ⟨rfl, .inside (.refl []) ht (.refl stage) h.nested⟩

/-- Compiling one token on either side keeps both alike, or fails on both in the same way. -/
theorem Alike.step (h : p.Alike L lead p') (ht : t.Moved L t') :
    Corresponds L (Alike L lead) (p.step env t) (p'.step env t') := by
  obtain ⟨active, nodes, blocks⟩ := p
  obtain ⟨active', nodes', blocks'⟩ := p'
  obtain rfl : active' = active := h.active_eq
  cases h.nested with
  | outermost after => exact (h.inStep ht).item ht []
  | @inside _ _ b b' outer outer' same opener stage around =>
    have hawaits : awaits (b' :: outer') t' = awaits (b :: outer) t := by
      simp only [awaits, ht.kind_eq, ht.tagName_eq, stage.awaited_eq]
    simp only [Progress.step, hawaits, stage.isOpaque_eq]
    split_ifs
    · have hresume := stage.resume same ht env active'
      revert hresume
      generalize b.stage.resume (env.filterLookup active') nodes t = r
      generalize b'.stage.resume (env.filterLookup active') nodes' t' = r'
      rintro (⟨alike | same'⟩ | moved)
      · exact .ok ⟨rfl, .inside (.refl []) opener alike around⟩
      · exact .ok ⟨rfl, around.append same'⟩
      · exact .error moved
    · exact .ok ⟨rfl, .inside same opener (stage.keep ht) around⟩
    · rw [stage.awaited_eq]
      exact (h.inStep ht).item ht b.stage.awaited

/-- So does compiling one token after the other. -/
theorem Alike.run {tokens tokens' : List Token} (h : p.Alike L lead p')
    (htokens : List.Forall₂ (Token.Moved L) tokens tokens') :
    Corresponds L (Alike L lead) (run env tokens p) (run env tokens' p') := by
  induction htokens generalizing p p' with
  | nil => exact .ok h
  | cons ht _ ih =>
    rw [run_cons, run_cons]
    exact (h.step ht).bind fun _ _ => ih

/-- At the end both templates are complete, or both fail in the same way. -/
theorem Alike.finish (h : p.Alike L lead p') {fault fault' : Option CompileError}
    (hfault : Option.Rel (CompileError.Moved L) fault fault') :
    Corresponds L (WritesAfter lead) (p.finish fault) (p'.finish fault') := by
  obtain ⟨active, nodes, blocks⟩ := p
  obtain ⟨active', nodes', blocks'⟩ := p'
  cases hfault with
  | some moved => exact .error moved
  | none =>
    cases h.nested with
    | outermost after => exact .ok after
    | inside same opener stage around =>
      simp only [Progress.finish, opener.tagName_eq, stage.awaited_eq]
      exact .error (.mk _ opener.lines)

/-- The outcomes are templates of which the second one writes `lead` and then what the first one writes, or the same
failure. -/
theorem Alike.outcome {tokens tokens' : List Token} {fault fault' : Option CompileError} (h : p.Alike L lead p')
    (htokens : List.Forall₂ (Token.Moved L) tokens tokens') (hfault : Option.Rel (CompileError.Moved L) fault fault') :
    Corresponds L (WritesAfter lead) (p.outcome env tokens fault) (p'.outcome env tokens' fault') :=
  (h.run htokens).bind fun _ _ hlast => hlast.finish hfault

end Progress

end TextTemplate
