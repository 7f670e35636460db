import TextTemplate.Node

/-!
# Names for lookup paths

A `with` tag can give a name to a lookup path. In the body of the tag the path can then be written out instead: every
lookup path that starts with the name goes on from the path. This changes what the body says unless no loop and no
binding in the body takes the name, or the name that the path starts with, for something else.
-/

namespace TextTemplate

/-- A name for a lookup path, whose first segment is kept apart. -/
structure Alias where
  name : String
  first : String
  rest : List String

namespace Alias

/-- The path with more segments after it. -/
def longer (a : Alias) (more : List String) : Operand :=
  ⟨".".intercalate (a.first :: (a.rest ++ more)), .path a.first (a.rest ++ more)⟩

/-- The path itself. -/
def operand (a : Alias) : Operand := a.longer []

def expression (a : Alias) : Expression := ⟨a.operand.source, a.operand, []⟩

/-- The names take neither the name of the alias nor the one that its path starts with. -/
structure FreeOf (a : Alias) (names : List String) : Prop where
  name : a.name ∉ names
  first : a.first ∉ names

theorem FreeOf.append {a : Alias} {names names' : List String} (h : a.FreeOf (names ++ names')) :
    a.FreeOf names ∧ a.FreeOf names' :=
  ⟨⟨fun hmem => h.name (List.mem_append_left _ hmem), fun hmem => h.first (List.mem_append_left _ hmem)⟩,
    fun hmem => h.name (List.mem_append_right _ hmem), fun hmem => h.first (List.mem_append_right _ hmem)⟩

theorem FreeOf.cons {a : Alias} {name : String} {names : List String} (h : a.FreeOf (name :: names)) :
    a.FreeOf [name] ∧ a.FreeOf names := by
  rw [← List.singleton_append] at h
  exact h.append

end Alias

/-! ## Writing the path out -/

/-- The path in place of the name, at the start of a lookup path. -/
def Operand.expand (a : Alias) (o : Operand) : Operand :=
  match o.meaning with
  | .literal _ => o
  | .path first rest => if first = a.name then a.longer rest else o

def FilterCall.expand (a : Alias) (c : FilterCall) : FilterCall := { c with argument := c.argument.map (·.expand a) }

/-- A filter call as it is written. -/
def FilterCall.written (c : FilterCall) : String :=
  "|" ++ c.name ++ match c.argument with
    | none => ""
    | some o => ":" ++ o.source

def Expression.expand (a : Alias) (e : Expression) : Expression :=
  let operand := e.operand.expand a
  let calls := e.calls.map (·.expand a)
  ⟨operand.source ++ String.join (calls.map (·.written)), operand, calls⟩

def Condition.expand (a : Alias) : Condition → Condition
  | operand e => operand (e.expand a)
  | comparison left op right => comparison (left.expand a) op (right.expand a)
  | group inside => group (inside.expand a)
  | not inside => not (inside.expand a)
  | and left right => and (left.expand a) (right.expand a)
  | or left right => or (left.expand a) (right.expand a)

namespace Node

mutual

/-- The path in place of the name, in all operands of a node and of all nodes below it. -/
def expand (a : Alias) : Node → Node
  | text s => text s
  | output e => output (e.expand a)
  | choice branches otherwise => choice (expandBranches a branches) (expandOption a otherwise)
  | loop names sequence reversed body empty =>
    loop names (sequence.expand a) reversed (expandAll a body) (expandAll a empty)
  | binding assignments body => binding (assignments.map fun e => (e.1, e.2.expand a)) (expandAll a body)
  | equality negated left right whenTrue whenFalse =>
    equality negated (left.expand a) (right.expand a) (expandAll a whenTrue) (expandAll a whenFalse)
  | firstTrue candidates => firstTrue (candidates.map (·.expand a))
  | spaceless body => spaceless (expandAll a body)
  | filtered calls body => filtered (calls.map (·.expand a)) (expandAll a body)
  | labelled label body => labelled label (expandAll a body)
  | marker s => marker s

def expandAll (a : Alias) : List Node → List Node
  | [] => []
  | n :: rest => n.expand a :: expandAll a rest

def expandBranches (a : Alias) : List (Condition × List Node) → List (Condition × List Node)
  | [] => []
  | (condition, body) :: rest => (condition.expand a, expandAll a body) :: expandBranches a rest

def expandOption (a : Alias) : Option (List Node) → Option (List Node)
  | none => none
  | some body => some (expandAll a body)

end

mutual

/-- The names that the loops and bindings of a node and of all nodes below it take. -/
def binders : Node → List String
  | text _ | output _ | firstTrue _ | marker _ => []
  | choice branches otherwise => branchBinders branches ++ optionBinders otherwise
  | loop names _ _ body empty => "forloop" :: names ++ (allBinders body ++ allBinders empty)
  | binding assignments body => assignments.map (·.1) ++ allBinders body
  | equality _ _ _ whenTrue whenFalse => allBinders whenTrue ++ allBinders whenFalse
  | spaceless body => allBinders body
  | filtered _ body => allBinders body
  | labelled _ body => allBinders body

def allBinders : List Node → List String
  | [] => []
  | n :: rest => n.binders ++ allBinders rest

def branchBinders : List (Condition × List Node) → List String
  | [] => []
  | (_, body) :: rest => allBinders body ++ branchBinders rest

def optionBinders : Option (List Node) → List String
  | none => []
  | some body => allBinders body

end

end Node

end TextTemplate
