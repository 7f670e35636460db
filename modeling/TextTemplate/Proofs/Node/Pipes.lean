import TextTemplate.Proofs.Compile.Grammar
import TextTemplate.Proofs.Condition.Acceptance
import TextTemplate.Proofs.Expression.Grammar

/-!
# The pipelines of a tree

Wherever a tag or variable holds an expression, there is a pipeline: an operand and the filter calls that its
value runs through. The chain of a `filter` tag is a pipeline without an operand of its own. Every pipeline of a
compiled tree, in whatever header it stands, is one that a text was compiled to with the filters that were active
there.
-/

namespace TextTemplate

/-- A pipeline as it stands in a tree. -/
structure Pipe where
  operand : Option Operand
  calls : List FilterCall

namespace Pipe

/-- The operand and the arguments of the calls. -/
def operands (p : Pipe) : List Operand := p.operand.toList ++ p.calls.filterMap (·.argument)

/-- A text compiles to the pipeline, as an expression or as a chain. -/
def CompiledWith (lookup : FilterLookup) (p : Pipe) : Prop :=
  (∃ source e, Pipeline.compile lookup source = .ok e ∧ p = ⟨some e.operand, e.calls⟩) ∨
    ∃ source calls, Pipeline.compileChain lookup source = .ok calls ∧ p = ⟨none, calls⟩

end Pipe

def Expression.pipe (e : Expression) : Pipe := ⟨some e.operand, e.calls⟩

theorem Expression.pipe_compiledWith {lookup : FilterLookup} {source : String} {e : Expression}
    (h : Pipeline.compile lookup source = .ok e) : e.pipe.CompiledWith lookup := .inl ⟨source, e, h, rfl⟩

/-- The pipelines of a condition. -/
def Condition.pipes : Condition → List Pipe
  | operand e => [e.pipe]
  | comparison left _ right => [left.pipe, right.pipe]
  | group inside => inside.pipes
  | not inside => inside.pipes
  | and left right => left.pipes ++ right.pipes
  | or left right => left.pipes ++ right.pipes

namespace Node

mutual

/-- The pipelines in a node and in all nodes below it. -/
def pipes : Node → List Pipe
  | text _ | marker _ => []
  | output e => [e.pipe]
  | choice branches otherwise => branchPipes branches ++ optionPipes otherwise
  | loop _ sequence _ body empty => sequence.pipe :: allPipes body ++ allPipes empty
  | binding assignments body => assignments.map (·.2.pipe) ++ allPipes body
  | equality _ left right whenTrue whenFalse =>
    [left.pipe, right.pipe] ++ allPipes whenTrue ++ allPipes whenFalse
  | firstTrue candidates => candidates.map (·.pipe)
  | spaceless body => allPipes body
  | filtered calls body => ⟨none, calls⟩ :: allPipes body
  | labelled _ body => allPipes body

def allPipes : List Node → List Pipe
  | [] => []
  | n :: rest => n.pipes ++ allPipes rest

def branchPipes : List (Condition × List Node) → List Pipe
  | [] => []
  | (condition, body) :: rest => condition.pipes ++ allPipes body ++ branchPipes rest

def optionPipes : Option (List Node) → List Pipe
  | none => []
  | some body => allPipes body

end

/-- All operands of a tree: of expressions and of filter calls, wherever they stand. -/
def allOperands (nodes : List Node) : List Operand := (allPipes nodes).flatMap (·.operands)

theorem allPipes_append (nodes nodes' : List Node) :
    allPipes (nodes ++ nodes') = allPipes nodes ++ allPipes nodes' := by
  induction nodes with
  | nil => rfl
  | cons n rest ih => rw [List.cons_append, allPipes, allPipes, ih, List.append_assoc]

end Node

/-! ## What is read from headers -/

variable {lookup : FilterLookup}

theorem Condition.Phrase.compiled_pipes {p : Phrase} {condition : Condition}
    (hp : p.compiled (Pipeline.compile lookup) = .ok condition) :
    ∀ pipe ∈ condition.pipes, pipe.CompiledWith lookup := by
  induction p generalizing condition with
  | operand text =>
    obtain ⟨e, he, hp⟩ := bind_eq_ok_iff.mp hp
    cases hp
    exact List.forall_mem_singleton.mpr (Expression.pipe_compiledWith he)
  | comparison left op right =>
    obtain ⟨e, he, hp⟩ := bind_eq_ok_iff.mp hp
    obtain ⟨e', he', hp⟩ := bind_eq_ok_iff.mp hp
    cases hp
    rw [Condition.pipes]
    exact List.forall_mem_cons.mpr ⟨Expression.pipe_compiledWith he,
      List.forall_mem_singleton.mpr (Expression.pipe_compiledWith he')⟩
  | group inside ih | not inside ih =>
    obtain ⟨inside', hinside, hp⟩ := bind_eq_ok_iff.mp hp
    cases hp
    rw [Condition.pipes]
    exact ih hinside
  | and left right ih ih' | or left right ih ih' =>
    obtain ⟨left', hleft, hp⟩ := bind_eq_ok_iff.mp hp
    obtain ⟨right', hright, hp⟩ := bind_eq_ok_iff.mp hp
    cases hp
    exact List.forall_mem_append.mpr ⟨ih hleft, ih' hright⟩

namespace HeaderReader

theorem condition_pipes {tag text : String} {found : Condition} (hread : condition lookup tag text = .ok found) :
    ∀ pipe ∈ found.pipes, pipe.CompiledWith lookup := by
  rw [condition] at hread
  split at hread
  · cases hread
  · rw [Condition.parse] at hread
    split at hread
    · cases hread
    · rename_i tokens hlex
      obtain ⟨ts, rfl, hts⟩ := ConditionToken.scan_ending hlex
      obtain ⟨p, -, hcompiled⟩ := (Condition.Parse.whole_run_eq_ok_iff hts rfl).mp hread
      exact Condition.Phrase.compiled_pipes hcompiled

theorem expressions_pipes {sources : List String} {found : List Expression}
    (hread : expressions lookup sources = .ok found) : ∀ pipe ∈ found.map (·.pipe), pipe.CompiledWith lookup := by
  induction sources generalizing found with
  | nil =>
    cases hread
    exact List.forall_mem_nil _
  | cons source rest ih =>
    obtain ⟨e, he, hread⟩ := bind_eq_ok_iff.mp hread
    obtain ⟨more, hmore, hread⟩ := bind_eq_ok_iff.mp hread
    cases hread
    exact List.forall_mem_cons.mpr ⟨Expression.pipe_compiledWith he, ih hmore⟩

theorem assignments_pipes {bits : List String} {found : List (String × Expression)}
    (hread : assignments lookup bits = .ok found) : ∀ pipe ∈ found.map (·.2.pipe), pipe.CompiledWith lookup := by
  induction bits generalizing found with
  | nil =>
    cases hread
    exact List.forall_mem_nil _
  | cons bit rest ih =>
    rw [assignments] at hread
    split at hread
    · cases hread
    · obtain ⟨e, he, hread⟩ := bind_eq_ok_iff.mp hread
      obtain ⟨more, hmore, hread⟩ := bind_eq_ok_iff.mp hread
      cases hread
      exact List.forall_mem_cons.mpr ⟨Expression.pipe_compiledWith he, ih hmore⟩

theorem bindings_pipes {content : String} {found : List (String × Expression)}
    (hread : bindings lookup content = .ok found) : ∀ pipe ∈ found.map (·.2.pipe), pipe.CompiledWith lookup := by
  by_cases halias : ∃ source name, Bits.ofString content = [source, "as", name]
  · obtain ⟨source, name, hbits⟩ := halias
    rw [bindings_alias hbits] at hread
    obtain ⟨e, he, hread⟩ := bind_eq_ok_iff.mp hread
    cases hread
    exact List.forall_mem_singleton.mpr (Expression.pipe_compiledWith he)
  · rw [bindings_assignments (by simpa using halias)] at hread
    obtain ⟨found', hfound, hread⟩ := bind_eq_ok_iff.mp hread
    split at hread
    · cases hread
    · cases hread
      exact assignments_pipes hfound

theorem loop_pipes {content : String} {found : Header.Loop × Expression} (hread : loop lookup content = .ok found) :
    found.2.pipe.CompiledWith lookup := by
  rw [loop] at hread
  split at hread
  · cases hread
  · obtain ⟨e, he, hread⟩ := bind_eq_ok_iff.mp hread
    cases hread
    exact Expression.pipe_compiledWith he

theorem operands_pipes {tag content : String} {found : Expression × Expression}
    (hread : operands lookup tag content = .ok found) :
    ∀ pipe ∈ [found.1.pipe, found.2.pipe], pipe.CompiledWith lookup := by
  rw [operands] at hread
  split at hread
  · obtain ⟨left, hleft, hread⟩ := bind_eq_ok_iff.mp hread
    obtain ⟨right, hright, hread⟩ := bind_eq_ok_iff.mp hread
    cases hread
    exact List.forall_mem_cons.mpr ⟨Expression.pipe_compiledWith hleft,
      List.forall_mem_singleton.mpr (Expression.pipe_compiledWith hright)⟩
  · cases hread

theorem candidates_pipes {content : String} {found : List Expression}
    (hread : candidates lookup content = .ok found) : ∀ pipe ∈ found.map (·.pipe), pipe.CompiledWith lookup := by
  rw [candidates] at hread
  split at hread
  · cases hread
  · exact expressions_pipes hread

end HeaderReader

/-! ## What is derived -/

namespace Grammar

variable {env : Environment} {room : Nat}

/-- The pipeline was compiled with the filters of some active libraries. -/
def Compiled (env : Environment) (p : Pipe) : Prop := ∃ active, p.CompiledWith (env.filterLookup active)

/-- All pipelines of what is derived were compiled. -/
def Pipes (env : Environment) (B : Derives (List Node)) : Prop :=
  ∀ {a u nodes a'}, B a u nodes a' → ∀ p ∈ Node.allPipes nodes, Compiled env p

variable {B : Derives (List Node)} (hB : Pipes env B)

theorem compiled_of_read {a : List Nat} {pipes : List Pipe}
    (h : ∀ p ∈ pipes, p.CompiledWith (env.filterLookup a)) : ∀ p ∈ pipes, Compiled env p :=
  fun p hp => ⟨a, h p hp⟩

include hB

theorem Pipes.elifs {a a' : List Nat} {u : List Token} {more : List (Condition × List Node)}
    (h : Elifs env B a u more a') : ∀ p ∈ Node.branchPipes more, Compiled env p := by
  induction h with
  | nil => exact List.forall_mem_nil _
  | cons _ condition body _ ih =>
    rw [Node.branchPipes]
    exact List.forall_mem_append.mpr ⟨List.forall_mem_append.mpr
      ⟨compiled_of_read (HeaderReader.condition_pipes condition), hB body⟩, ih⟩

theorem Pipes.ending {separator : Token → Prop} {endTag : String} {a a' : List Nat} {w : List Token}
    {other : Option (List Node)} (h : Ending B separator endTag a w other a') :
    (∀ p ∈ Node.optionPipes other, Compiled env p) ∧ ∀ p ∈ Node.allPipes (other.getD []), Compiled env p := by
  cases h with
  | without => exact ⟨List.forall_mem_nil _, List.forall_mem_nil _⟩
  | withBody _ body => exact ⟨hB body, hB body⟩

/-- All pipelines of a block were compiled if those of its bodies were. -/
theorem Pipes.block {a a' : List Nat} {u : List Token} {node : Option Node} (h : Block env B a u node a') :
    ∀ n ∈ node, ∀ p ∈ n.pipes, Compiled env p := by
  intro n hn
  cases h with
  | load | comment => cases hn
  | verbatim | symbol =>
    cases hn
    exact List.forall_mem_nil _
  | conditional _ reads body elifs ending =>
    cases hn
    rw [Node.pipes, Node.branchPipes]
    exact List.forall_mem_append.mpr ⟨List.forall_mem_append.mpr ⟨List.forall_mem_append.mpr
      ⟨compiled_of_read (HeaderReader.condition_pipes reads), hB body⟩, hB.elifs elifs⟩, (hB.ending ending).1⟩
  | loop _ reads body ending =>
    cases hn
    rw [Node.pipes]
    exact List.forall_mem_append.mpr ⟨List.forall_mem_cons.mpr ⟨⟨a, HeaderReader.loop_pipes reads⟩, hB body⟩,
      (hB.ending ending).2⟩
  | binding _ reads body =>
    cases hn
    rw [Node.pipes]
    exact List.forall_mem_append.mpr ⟨compiled_of_read (HeaderReader.bindings_pipes reads), hB body⟩
  | equality _ reads body ending | inequality _ reads body ending =>
    cases hn
    rw [Node.pipes]
    exact List.forall_mem_append.mpr ⟨List.forall_mem_append.mpr
      ⟨compiled_of_read (HeaderReader.operands_pipes reads), hB body⟩, (hB.ending ending).2⟩
  | firstOf _ reads =>
    cases hn
    rw [Node.pipes]
    exact compiled_of_read (HeaderReader.candidates_pipes reads)
  | spaceless _ body =>
    cases hn
    exact hB body
  | filtered _ reads body =>
    cases hn
    rw [Node.pipes]
    exact List.forall_mem_cons.mpr ⟨⟨a, .inr ⟨_, _, reads, rfl⟩⟩, hB body⟩

omit hB in
/-- All pipelines of a body were compiled if those of its blocks were. -/
theorem pipes_items {Blk : Derives (Option Node)}
    (hBlk : ∀ {a u node a'}, Blk a u node a' → ∀ n ∈ node, ∀ p ∈ n.pipes, Compiled env p) :
    Pipes env (Items env Blk) := by
  intro a u nodes a' h
  induction h with
  | nil => exact List.forall_mem_nil _
  | text _ _ ih =>
    rw [Node.allPipes]
    exact ih
  | output _ compiled _ ih =>
    rw [Node.allPipes]
    exact List.forall_mem_cons.mpr ⟨⟨_, Expression.pipe_compiledWith compiled⟩, ih⟩
  | comment _ _ ih => exact ih
  | @block _ _ _ _ _ node _ block _ ih =>
    rw [Node.allPipes_append]
    refine List.forall_mem_append.mpr ⟨?_, ih⟩
    cases node with
    | none => exact List.forall_mem_nil _
    | some n =>
      rw [Option.toList_some, Node.allPipes, Node.allPipes, List.append_nil]
      exact hBlk block n rfl

omit hB in
/-- All pipelines of a body were compiled, however deep its blocks are nested. -/
theorem body_pipes (env : Environment) (room : Nat) : Pipes env (Body env room) := by
  induction room with
  | zero => exact pipes_items fun h => h.elim
  | succ room ih => exact pipes_items fun h => Pipes.block ih h

end Grammar

end TextTemplate
