import TextTemplate.Proofs.Node.Watch

/-!
# Trees with holes

A node of the standard tags is never a marker, so in what they compile to a marker can keep the place of a node that
is not settled yet. A hole is filled with a node, at whatever depth it is. Rendering asks nothing of a node but what it
does when it is rendered, so two nodes that do the same are as good as each other in every hole.
-/

namespace TextTemplate.Node

mutual

/-- A node with `n` in all its holes. -/
def fill (n : Node) : Node → Node
  | text s => text s
  | output e => output e
  | choice branches otherwise => choice (fillBranches n branches) (fillOption n otherwise)
  | loop names sequence reversed body empty => loop names sequence reversed (fillAll n body) (fillAll n empty)
  | binding assignments body => binding assignments (fillAll n body)
  | equality negated left right whenTrue whenFalse =>
    equality negated left right (fillAll n whenTrue) (fillAll n whenFalse)
  | firstTrue candidates => firstTrue candidates
  | spaceless body => spaceless (fillAll n body)
  | filtered calls body => filtered calls (fillAll n body)
  | labelled label body => labelled label (fillAll n body)
  | marker _ => n

def fillAll (n : Node) : List Node → List Node
  | [] => []
  | m :: rest => fill n m :: fillAll n rest

def fillBranches (n : Node) : List (Condition × List Node) → List (Condition × List Node)
  | [] => []
  | (c, body) :: rest => (c, fillAll n body) :: fillBranches n rest

def fillOption (n : Node) : Option (List Node) → Option (List Node)
  | none => none
  | some body => some (fillAll n body)

end

@[simp] theorem fillAll_append (n : Node) (nodes more : List Node) :
    fillAll n (nodes ++ more) = fillAll n nodes ++ fillAll n more := by
  induction nodes with
  | nil => rfl
  | cons m rest ih => simp [fillAll, ih]

@[simp] theorem fillBranches_append (n : Node) (branches more : List (Condition × List Node)) :
    fillBranches n (branches ++ more) = fillBranches n branches ++ fillBranches n more := by
  induction branches with
  | nil => rfl
  | cons b rest ih => simp [fillBranches, ih]

theorem fillAll_toList (n : Node) (node : Option Node) : fillAll n node.toList = (node.map (fill n)).toList := by
  cases node <;> rfl

variable {n n' : Node}

mutual

theorem watch_fill (h : n'.watch = n.watch) : (m : Node) → (fill n' m).watch = (fill n m).watch
  | text _ | output _ | firstTrue _ => rfl
  | choice branches otherwise => by
    rw [fill, fill, watch, watch, watchOption_fill h otherwise, watchBranches_fill h _ branches]
  | loop names sequence reversed body empty => by
    rw [fill, fill, watch, watch, watchAll_fill h body, watchAll_fill h empty]
  | binding assignments body => by rw [fill, fill, watch, watch, watchAll_fill h body]
  | equality negated left right whenTrue whenFalse => by
    rw [fill, fill, watch, watch, watchAll_fill h whenTrue, watchAll_fill h whenFalse]
  | spaceless body => by rw [fill, fill, watch, watch, watchAll_fill h body]
  | filtered calls body => by rw [fill, fill, watch, watch, watchAll_fill h body]
  | labelled label body => by rw [fill, fill, watch, watch, watchAll_fill h body]
  | marker _ => h

/-- Nodes that do the same when they are rendered are as good as each other in all holes. -/
theorem watchAll_fill (h : n'.watch = n.watch) : (nodes : List Node) →
    watchAll (fillAll n' nodes) = watchAll (fillAll n nodes)
  | [] => rfl
  | m :: rest => by rw [fillAll, fillAll, watchAll, watchAll, watch_fill h m, watchAll_fill h rest]

theorem watchBranches_fill (h : n'.watch = n.watch) (otherwise : WatchM String) :
    (branches : List (Condition × List Node)) →
      watchBranches otherwise (fillBranches n' branches) = watchBranches otherwise (fillBranches n branches)
  | [] => rfl
  | (c, body) :: rest => by
    rw [fillBranches, fillBranches, watchBranches, watchBranches, watchAll_fill h body,
      watchBranches_fill h otherwise rest]

theorem watchOption_fill (h : n'.watch = n.watch) : (otherwise : Option (List Node)) →
    watchOption (fillOption n' otherwise) = watchOption (fillOption n otherwise)
  | none => rfl
  | some body => watchAll_fill h body

end

end TextTemplate.Node
