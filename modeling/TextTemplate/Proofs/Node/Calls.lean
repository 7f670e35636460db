import TextTemplate.Proofs.Node.Pipes

/-!
# The filter calls of nodes

All filter calls that stand in a tree of nodes, wherever in it an expression stands. A call has the function
that the filter was found to be when its expression was compiled: what holds of all filters that a look-up can
answer with holds of all calls that are compiled with it.
-/

namespace TextTemplate

/-! ## Calls -/

/-- The filter calls of the operands of a condition. -/
def Condition.calls : Condition → List FilterCall
  | operand e => e.calls
  | comparison left _ right => left.calls ++ right.calls
  | group inside => inside.calls
  | not inside => inside.calls
  | and left right => left.calls ++ right.calls
  | or left right => left.calls ++ right.calls

theorem Condition.calls_eq (c : Condition) : c.calls = c.pipes.flatMap (·.calls) := by
  induction c with
  | operand e => simp [calls, pipes, Expression.pipe]
  | comparison left op right => simp [calls, pipes, Expression.pipe]
  | group inside ih => exact ih
  | not inside ih => exact ih
  | and left right ihleft ihright | or left right ihleft ihright =>
    rw [calls, pipes, List.flatMap_append, ihleft, ihright]

namespace Node

mutual

/-- The filter calls in a node and in all nodes below it. -/
def calls : Node → List FilterCall
  | text _ | marker _ => []
  | output e => e.calls
  | choice branches otherwise => branchCalls branches ++ optionCalls otherwise
  | loop _ sequence _ body empty => sequence.calls ++ allCalls body ++ allCalls empty
  | binding assignments body => assignments.flatMap (·.2.calls) ++ allCalls body
  | equality _ left right whenTrue whenFalse =>
    left.calls ++ right.calls ++ allCalls whenTrue ++ allCalls whenFalse
  | firstTrue candidates => candidates.flatMap (·.calls)
  | spaceless body => allCalls body
  | filtered calls body => calls ++ allCalls body
  | labelled _ body => allCalls body

def allCalls : List Node → List FilterCall
  | [] => []
  | n :: rest => n.calls ++ allCalls rest

def branchCalls : List (Condition × List Node) → List FilterCall
  | [] => []
  | (condition, body) :: rest => condition.calls ++ allCalls body ++ branchCalls rest

def optionCalls : Option (List Node) → List FilterCall
  | none => []
  | some body => allCalls body

end

mutual

theorem calls_eq : (n : Node) → n.calls = n.pipes.flatMap (·.calls)
  | text _ | marker _ => rfl
  | output e => by simp [calls, pipes, Expression.pipe]
  | choice branches otherwise => by
    rw [calls, pipes, List.flatMap_append, branchCalls_eq, optionCalls_eq]
  | loop _ sequence _ body empty => by
    rw [calls, pipes, List.flatMap_append, List.flatMap_cons, allCalls_eq body, allCalls_eq empty]
    rfl
  | binding assignments body => by
    rw [calls, pipes, List.flatMap_append, List.flatMap_map, allCalls_eq body]
    rfl
  | equality _ left right whenTrue whenFalse => by
    rw [calls, pipes, List.flatMap_append, List.flatMap_append, allCalls_eq whenTrue, allCalls_eq whenFalse]
    simp [Expression.pipe]
  | firstTrue candidates => by
    rw [calls, pipes, List.flatMap_map]
    rfl
  | spaceless body => allCalls_eq body
  | filtered calls body => by rw [Node.calls, pipes, List.flatMap_cons, allCalls_eq body]
  | labelled _ body => allCalls_eq body

/-- The calls of a tree are those of its pipelines. -/
theorem allCalls_eq : (nodes : List Node) → allCalls nodes = (allPipes nodes).flatMap (·.calls)
  | [] => rfl
  | n :: rest => by rw [allCalls, allPipes, List.flatMap_append, calls_eq n, allCalls_eq rest]

theorem branchCalls_eq : (branches : List (Condition × List Node)) →
    branchCalls branches = (branchPipes branches).flatMap (·.calls)
  | [] => rfl
  | (condition, body) :: rest => by
    rw [branchCalls, branchPipes, List.flatMap_append, List.flatMap_append, condition.calls_eq, allCalls_eq body,
      branchCalls_eq rest]

theorem optionCalls_eq : (otherwise : Option (List Node)) →
    optionCalls otherwise = (optionPipes otherwise).flatMap (·.calls)
  | none => rfl
  | some body => allCalls_eq body

end

theorem allCalls_append (nodes nodes' : List Node) :
    allCalls (nodes ++ nodes') = allCalls nodes ++ allCalls nodes' := by
  induction nodes with
  | nil => rfl
  | cons n rest ih => rw [List.cons_append, allCalls, allCalls, ih, List.append_assoc]

end Node

/-! ## What the calls of a compiled text have in common -/

/-- Every call of a filter that the look-up answers with has the property. -/
def FilterLookup.Gives (lookup : FilterLookup) (P : FilterCall → Prop) : Prop :=
  ∀ name filter argument, lookup name = .ok filter → P ⟨name, filter, argument⟩

variable {lookup : FilterLookup} {P : FilterCall → Prop}

namespace Pipeline

theorem compile_gives (h : lookup.Gives P) {source : String} {e : Expression}
    (he : compile lookup source = .ok e) : ∀ c ∈ e.calls, P c := by
  intro c hc
  obtain ⟨step, hmeans⟩ := means_of_compile he c hc
  exact h c.name c.filter c.argument hmeans.filter_eq

theorem compileChain_gives (h : lookup.Gives P) {source : String} {calls : List FilterCall}
    (hcalls : compileChain lookup source = .ok calls) : ∀ c ∈ calls, P c := by
  intro c hc
  obtain ⟨step, hmeans⟩ := means_of_compileChain hcalls c hc
  exact h c.name c.filter c.argument hmeans.filter_eq

end Pipeline

theorem Pipe.CompiledWith.gives {p : Pipe} (hp : p.CompiledWith lookup) (h : lookup.Gives P) :
    ∀ c ∈ p.calls, P c := by
  obtain ⟨source, e, he, rfl⟩ | ⟨source, calls, hcalls, rfl⟩ := hp
  · exact Pipeline.compile_gives h he
  · exact Pipeline.compileChain_gives h hcalls

/-- What holds of all filters that the look-up answers with holds of the calls of all pipelines compiled with it. -/
theorem gives_of_pipes (h : lookup.Gives P) {pipes : List Pipe} (hpipes : ∀ p ∈ pipes, p.CompiledWith lookup) :
    ∀ c ∈ pipes.flatMap (·.calls), P c := by
  intro c hc
  obtain ⟨p, hp, hc⟩ := List.mem_flatMap.mp hc
  exact (hpipes p hp).gives h c hc

namespace HeaderReader

theorem condition_gives (h : lookup.Gives P) {tag text : String} {condition : Condition}
    (hread : HeaderReader.condition lookup tag text = .ok condition) : ∀ c ∈ condition.calls, P c := by
  rw [condition.calls_eq]
  exact gives_of_pipes h (condition_pipes hread)

theorem bindings_gives (h : lookup.Gives P) {content : String} {found : List (String × Expression)}
    (hread : bindings lookup content = .ok found) : ∀ c ∈ found.flatMap (·.2.calls), P c := by
  have hpipes := gives_of_pipes h (bindings_pipes hread)
  rwa [List.flatMap_map] at hpipes

theorem loop_gives (h : lookup.Gives P) {content : String} {found : Header.Loop × Expression}
    (hread : loop lookup content = .ok found) : ∀ c ∈ found.2.calls, P c :=
  (loop_pipes hread).gives h

theorem operands_gives (h : lookup.Gives P) {tag content : String} {found : Expression × Expression}
    (hread : operands lookup tag content = .ok found) : ∀ c ∈ found.1.calls ++ found.2.calls, P c := by
  have hpipes := gives_of_pipes h (operands_pipes hread)
  simpa [Expression.pipe] using hpipes

theorem candidates_gives (h : lookup.Gives P) {content : String} {found : List Expression}
    (hread : candidates lookup content = .ok found) : ∀ c ∈ found.flatMap (·.calls), P c := by
  have hpipes := gives_of_pipes h (candidates_pipes hread)
  rwa [List.flatMap_map] at hpipes

end HeaderReader

end TextTemplate
