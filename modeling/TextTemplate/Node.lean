import TextTemplate.Condition

/-!
# Nodes

The tree that a template compiles to. Besides the nodes of the standard tags there are two for host tags: a
body with a label around it, and a fixed text.
-/

namespace TextTemplate

inductive Node where
  | text (s : String)
  | output (e : Expression)
  /-- The branches of an `if` tag in order, and its `else` branch. -/
  | choice (branches : List (Condition × List Node)) (otherwise : Option (List Node))
  | loop (names : List String) (sequence : Expression) (reversed : Bool) (body empty : List Node)
  | binding (assignments : List (String × Expression)) (body : List Node)
  | equality (negated : Bool) (left right : Expression) (whenTrue whenFalse : List Node)
  | firstTrue (candidates : List Expression)
  | spaceless (body : List Node)
  | filtered (calls : List FilterCall) (body : List Node)
  | labelled (label : String) (body : List Node)
  | marker (s : String)

/-- The kinds of nodes that a tree can be searched for. -/
inductive NodeKind where
  | text
  | output
  | choice
  | loop
  | binding
  | equality
  | firstTrue
  | spaceless
  | filtered
  | labelled
  | marker
  deriving DecidableEq, Repr

namespace Node

def kind : Node → NodeKind
  | text .. => .text
  | output .. => .output
  | choice .. => .choice
  | loop .. => .loop
  | binding .. => .binding
  | equality .. => .equality
  | firstTrue .. => .firstTrue
  | spaceless .. => .spaceless
  | filtered .. => .filtered
  | labelled .. => .labelled
  | marker .. => .marker

/-- The lists of children of a node in source order. Empty lists are left out, except those of branches. -/
def children : Node → List (List Node)
  | choice branches otherwise => branches.map (·.2) ++ otherwise.toList
  | loop _ _ _ body empty => [body, empty].filter (!·.isEmpty)
  | equality _ _ _ whenTrue whenFalse => [whenTrue, whenFalse].filter (!·.isEmpty)
  | binding _ body | spaceless body | filtered _ body | labelled _ body => [body].filter (!·.isEmpty)
  | text _ | output _ | firstTrue _ | marker _ => []

mutual

/-- A node and all nodes below it, in source order. -/
def descendants (n : Node) : List Node :=
  n :: match n with
    | choice branches otherwise => branchDescendants branches ++ optionDescendants otherwise
    | loop _ _ _ body empty => allDescendants body ++ allDescendants empty
    | equality _ _ _ whenTrue whenFalse => allDescendants whenTrue ++ allDescendants whenFalse
    | binding _ body => allDescendants body
    | spaceless body => allDescendants body
    | filtered _ body => allDescendants body
    | labelled _ body => allDescendants body
    | text _ | output _ | firstTrue _ | marker _ => []

def allDescendants : List Node → List Node
  | [] => []
  | n :: rest => n.descendants ++ allDescendants rest

def branchDescendants : List (Condition × List Node) → List Node
  | [] => []
  | (_, body) :: rest => allDescendants body ++ branchDescendants rest

def optionDescendants : Option (List Node) → List Node
  | none => []
  | some body => allDescendants body

end

/-- All nodes of one kind in a tree, in source order. -/
def ofKind (kind : NodeKind) (nodes : List Node) : List Node :=
  (allDescendants nodes).filter (·.kind == kind)

/-- A list of text nodes as diagnostics show it; other nodes are left out. -/
def textsShown (nodes : List Node) : String :=
  "NodeList([" ++ ", ".intercalate (nodes.filterMap fun
    | text s => some ("TextNode(text=" ++ Text.quoted s ++ ")")
    | _ => none) ++ "])"

end Node

end TextTemplate
