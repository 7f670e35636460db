import TextTemplate.Proofs.Compile.Progress
import TextTemplate.Proofs.Node.Holes

/-!
# What is compiled around a node

The compiler collects nodes and puts them into other nodes, but it never looks at one. So with a hole in place of a
node that was compiled, all tokens after it are compiled in the same way, and what they compile to is the same around
the hole as around the node.
-/

namespace TextTemplate

open Node

variable {env : Environment} {base : List Nat}

/-- An open block with `n` in all holes of the bodies that it is done with. -/
def Stage.fill (n : Node) : Stage → Stage
  | branch before c => branch (fillBranches n before) c
  | otherwise branches => otherwise (fillBranches n branches)
  | loopEmpty header sequence nodes => loopEmpty header sequence (fillAll n nodes)
  | whenFalse negated left right nodes => whenFalse negated left right (fillAll n nodes)
  | stage => stage

def Resumed.fill (n : Node) : Resumed → Resumed
  | again stage => again (stage.fill n)
  | closed node => closed (node.map (Node.fill n))

def Opening.fill (n : Node) : Opening → Opening
  | leaf node active => leaf (node.map (Node.fill n)) active
  | block stage => block (stage.fill n)

def OpenBlock.fill (n : Node) (b : OpenBlock) : OpenBlock := ⟨b.opener, b.stage.fill n, fillAll n b.before⟩

/-- Progress with `n` in all holes. -/
def Progress.fill (n : Node) (p : Progress) : Progress := ⟨p.active, fillAll n p.nodes, p.blocks.map (OpenBlock.fill n)⟩

namespace Stage

@[simp] theorem fill_awaited (stage : Stage) (n : Node) : (stage.fill n).awaited = stage.awaited := by
  cases stage with
  | whenFalse negated => cases negated <;> rfl
  | _ => rfl

@[simp] theorem fill_isOpaque (stage : Stage) (n : Node) : (stage.fill n).isOpaque = stage.isOpaque := by
  cases stage <;> rfl

theorem fill_keep (stage : Stage) (n : Node) (t : Token) : (stage.fill n).keep t = (stage.keep t).fill n := by
  cases stage <;> rfl

/-- What becomes of an open block does not depend on its nodes. -/
theorem fill_resume (stage : Stage) (n : Node) (lookup : FilterLookup) (nodes : List Node) (t : Token) :
    (stage.fill n).resume lookup (fillAll n nodes) t = (stage.resume lookup nodes t).map (Resumed.fill n) := by
  cases stage with
  | branch before c =>
    rw [fill, resume, resume]
    split_ifs
    · cases HeaderReader.condition lookup "elif" t.tagContent with
      | ok c' => simp [Except.map, Resumed.fill, fill, fillBranches]
      | error e => rfl
    · simp [Except.map, Resumed.fill, fill, fillBranches]
    · rfl
    · simp [Except.map, Resumed.fill, Node.fill, fillBranches, fillOption]
  | loopBody header sequence =>
    have hself : (loopBody header sequence).fill n = loopBody header sequence := rfl
    rw [hself, resume, resume]
    split_ifs <;> simp [Except.map, Resumed.fill, fill, Node.fill, fillAll]
  | whenTrue negated left right =>
    have hself : (whenTrue negated left right).fill n = whenTrue negated left right := rfl
    rw [hself, resume, resume]
    split_ifs <;> simp [Except.map, Resumed.fill, fill, Node.fill, fillAll]
  | _ => simp [Except.map, Resumed.fill, fill, resume, Node.fill, fillOption]

end Stage

/-- What a header is read to has no holes. -/
theorem Directive.fill_opening {k : Directive} {active : List Nat} {content : String} {opening : Opening}
    (h : k.opening env active content = .ok opening) (n : Node) : opening.fill n = opening := by
  cases k with
  | comment | verbatim | spaceless =>
    cases h
    rfl
  | _ =>
    obtain ⟨_, _, h⟩ := bind_eq_ok_iff.mp h
    cases h
    rfl

namespace Progress

variable (env : Environment) (n : Node) (p : Progress)

theorem fill_enter (k : Directive) (t : Token) : (p.fill n).enter env k t = (p.enter env k t).map (fill n) := by
  unfold enter
  cases hopening : k.opening env p.active t.tagContent with
  | error e => simp [fill, hopening, Except.map]
  | ok opening =>
    have hfill := Directive.fill_opening hopening n
    cases opening with
    | leaf node active =>
      have hnode : node.map (Node.fill n) = node := congrArg (fun | Opening.leaf node _ => node | _ => none) hfill
      simp [fill, hopening, Except.map, fillAll_toList, hnode]
    | block stage =>
      have hstage : stage.fill n = stage := Opening.block.inj hfill
      simp [fill, hopening, Except.map, OpenBlock.fill, hstage, fillAll]

theorem fill_item (stop : List String) (t : Token) : (p.fill n).item env stop t = (p.item env stop t).map (fill n) := by
  cases hkind : t.kind with
  | text => simp [item, hkind, fill, Except.map, fillAll, Node.fill]
  | comment => simp [item, hkind, Except.map]
  | «variable» =>
    simp only [item, hkind]
    split_ifs
    · rfl
    · cases hcompile : Pipeline.compile (env.filterLookup p.active) t.content with
      | ok e => simp [fill, hcompile, Except.map, fillAll, Node.fill]
      | error e => simp [fill, hcompile, Except.map]
  | block =>
    have hlength : (p.fill n).blocks.length = p.blocks.length := List.length_map _
    simp only [item, hkind, hlength]
    split_ifs
    · rfl
    · cases hdirective : env.directive? p.active t.tagName with
      | none => simp [fill, hdirective, Except.map]
      | some k => simp [fill, hdirective, Except.map]
    · cases hdirective : env.directive? p.active t.tagName with
      | none => simp [fill, hdirective, Except.map]
      | some k => simpa [fill, hdirective] using fill_enter env n p k t

/-- A token is compiled in the same way whatever is in the holes. -/
theorem fill_step (t : Token) : (p.fill n).step env t = (p.step env t).map (fill n) := by
  obtain ⟨active, nodes, blocks⟩ := p
  cases blocks with
  | nil => exact fill_item env n ⟨active, nodes, []⟩ [] t
  | cons b outer =>
    have hawaits : awaits (OpenBlock.fill n b :: outer.map (OpenBlock.fill n)) t = awaits (b :: outer) t := by
      simp [awaits, OpenBlock.fill]
    have hopaque : (OpenBlock.fill n b).stage.isOpaque = b.stage.isOpaque := b.stage.fill_isOpaque n
    have hstop : (OpenBlock.fill n b).stage.awaited = b.stage.awaited := b.stage.fill_awaited n
    simp only [fill, step, List.map_cons, hawaits, hopaque, hstop]
    split_ifs
    · simp only [OpenBlock.fill, b.stage.fill_resume n (env.filterLookup active) nodes t]
      cases b.stage.resume (env.filterLookup active) nodes t with
      | error e => rfl
      | ok resumed =>
        cases resumed with
        | again stage => rfl
        | closed node => simp [Except.map, Resumed.fill, fill, fillAll_toList]
    · simp [Except.map, fill, OpenBlock.fill, Stage.fill_keep]
    · exact fill_item env n ⟨active, nodes, b :: outer⟩ b.stage.awaited t

/-- So are all tokens that follow. -/
theorem fill_run (tokens : List Token) : run env tokens (p.fill n) = (run env tokens p).map (fill n) := by
  induction tokens generalizing p with
  | nil => rfl
  | cons t tokens ih =>
    rw [run_cons, run_cons, fill_step]
    cases p.step env t with
    | error e => rfl
    | ok p₁ => exact ih p₁

variable {env n}

/-- Whatever node is compiled at a place, the template that it comes to stand in is the same around it. -/
theorem exists_around {before after : List Token} {a a' active : List Nat} {d nodes : List Node}
    {blocks : List OpenBlock} (hbefore : run env before (start base) = .ok ⟨a, d, blocks⟩)
    (h : run env after ⟨a', d ++ [n], blocks⟩ = .ok ⟨active, nodes, []⟩) : ∃ around, nodes = fillAll n around ∧
      ∀ n', run env after ⟨a', d ++ [n'], blocks⟩ = .ok ⟨active, fillAll n' around, []⟩ := by
  have hhole (m : Node) : (⟨a', d ++ [.marker ""], blocks⟩ : Progress).fill m = ⟨a', d ++ [m], blocks⟩ := by
    -- there are no holes in what was compiled up to the place
    have hstart : run env before ((start base).fill m) = .ok ⟨a, d, blocks⟩ := hbefore
    rw [fill_run, hbefore] at hstart
    obtain ⟨hd, hblocks⟩ : fillAll m d = d ∧ blocks.map (OpenBlock.fill m) = blocks := by
      simpa [Except.map, fill] using hstart
    simp [fill, hd, hblocks, fillAll, Node.fill]
  rw [← hhole n, fill_run] at h
  cases hrun : run env after ⟨a', d ++ [.marker ""], blocks⟩ with
  | error e =>
    rw [hrun] at h
    cases h
  | ok p =>
    rw [hrun] at h
    obtain ⟨hactive, hnodes, hblocks⟩ : p.active = active ∧ fillAll n p.nodes = nodes ∧ p.blocks = [] := by
      simpa [Except.map, fill] using h
    refine ⟨p.nodes, hnodes.symm, fun n' => ?_⟩
    rw [← hhole n', fill_run, hrun]
    simp [Except.map, fill, hactive, hblocks]

end Progress

end TextTemplate
