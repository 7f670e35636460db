import TextTemplate.Node
import TextTemplate.Proofs.Tag.Header
import TextTemplate.Proofs.Token.Relex

/-!
# Templates as trees

A template is written from a tree of texts, expressions and block tags. A tree knows what stands in its tags
and which bodies are there, its source is put together from the segments of its parts, and it stands for
nodes. It is valid if every header says something that can be read.
-/

namespace TextTemplate

/-- What a tag has in its header, and what it is read as; there are no blanks around it. -/
structure Written (α : Type) where
  text : String
  value : α
  trimmed : Text.Trimmed text.toList

/-- A part of a template as it is written. -/
inductive Tree where
  | text (s : String)
  | output (e : Expression)
  /-- An `if` tag with its branches, those of `elif`, and that of `else`. -/
  | choice (condition : Written Condition) (body : List Tree) (more : List (Written Condition × List Tree))
    (otherwise : Option (List Tree))
  | loop (names : List String) (sequence : Expression) (reversed : Bool) (body : List Tree)
    (empty : Option (List Tree))
  /-- A `with` tag with assignments. -/
  | binding (assignments : List (String × Expression)) (body : List Tree)
  /-- A `with` tag with an expression and the name for it. -/
  | aliased (e : Expression) (name : String) (body : List Tree)
  | equality (negated : Bool) (left right : Expression) (whenTrue : List Tree) (whenFalse : Option (List Tree))
  | firstTrue (candidates : List Expression)
  | spaceless (body : List Tree)
  | filtered (chain : Written (List FilterCall)) (body : List Tree)

namespace Tree

/-- The name of a comparing tag. -/
def equalityName (negated : Bool) : String := if negated then "ifnotequal" else "ifequal"

open Segment in
mutual

/-- The segments of a part. -/
def segments : Tree → List Segment
  | text s => [⟨.text, s.toList⟩]
  | output e => [delimited .variable e.source]
  | choice condition body more otherwise =>
    tag "if" condition.text :: allSegments body ++ branchSegments more ++
      endingSegments "else" "endif" otherwise
  | loop names sequence reversed body empty =>
    tag "for" (" ".intercalate (Header.loopBits names sequence.source reversed)) :: allSegments body ++
      endingSegments "empty" "endfor" empty
  | binding assignments body =>
    tag "with" (" ".intercalate (assignments.map Header.assignmentBit)) :: allSegments body ++ [tag "endwith" ""]
  | aliased e name body =>
    tag "with" (" ".intercalate [e.source, "as", name]) :: allSegments body ++ [tag "endwith" ""]
  | equality negated left right whenTrue whenFalse =>
    tag (equalityName negated) (" ".intercalate [left.source, right.source]) :: allSegments whenTrue ++
      endingSegments "else" ("end" ++ equalityName negated) whenFalse
  | firstTrue candidates => [tag "firstof" (" ".intercalate (candidates.map Expression.source))]
  | spaceless body => tag "spaceless" "" :: allSegments body ++ [tag "endspaceless" ""]
  | filtered chain body => tag "filter" chain.text :: allSegments body ++ [tag "endfilter" ""]

/-- The segments of a body. -/
def allSegments : List Tree → List Segment
  | [] => []
  | t :: rest => t.segments ++ allSegments rest

/-- The segments of `elif` branches. -/
def branchSegments : List (Written Condition × List Tree) → List Segment
  | [] => []
  | (condition, body) :: rest => tag "elif" condition.text :: allSegments body ++ branchSegments rest

/-- The segments of a further body, if there is one, and of the end tag. -/
def endingSegments (separator endTag : String) : Option (List Tree) → List Segment
  | none => [tag endTag ""]
  | some body => tag separator "" :: allSegments body ++ [tag endTag ""]

end

/-- The source of a template. -/
def source (template : List Tree) : String := String.ofList (Segment.source (allSegments template))

mutual

/-- The node that a part stands for. -/
def node : Tree → Node
  | text s => .text s
  | output e => .output e
  | choice condition body more otherwise =>
    .choice ((condition.value, allNodes body) :: branchNodes more) (optionNodes otherwise)
  | loop names sequence reversed body empty =>
    .loop names sequence reversed (allNodes body) ((optionNodes empty).getD [])
  | binding assignments body => .binding assignments (allNodes body)
  | aliased e name body => .binding [(name, e)] (allNodes body)
  | equality negated left right whenTrue whenFalse =>
    .equality negated left right (allNodes whenTrue) ((optionNodes whenFalse).getD [])
  | firstTrue candidates => .firstTrue candidates
  | spaceless body => .spaceless (allNodes body)
  | filtered chain body => .filtered chain.value (allNodes body)

def allNodes : List Tree → List Node
  | [] => []
  | t :: rest => t.node :: allNodes rest

def branchNodes : List (Written Condition × List Tree) → List (Condition × List Node)
  | [] => []
  | (condition, body) :: rest => (condition.value, allNodes body) :: branchNodes rest

def optionNodes : Option (List Tree) → Option (List Node)
  | none => none
  | some body => some (allNodes body)

end

mutual

/-- The most block tags that are open at once in a part. -/
def depth : Tree → Nat
  | text _ | output _ => 0
  | choice _ body more otherwise => max (allDepth body) (max (branchDepth more) (optionDepth otherwise)) + 1
  | loop _ _ _ body empty => max (allDepth body) (optionDepth empty) + 1
  | binding _ body => allDepth body + 1
  | aliased _ _ body => allDepth body + 1
  | equality _ _ _ whenTrue whenFalse => max (allDepth whenTrue) (optionDepth whenFalse) + 1
  | firstTrue _ => 1
  | spaceless body => allDepth body + 1
  | filtered _ body => allDepth body + 1

def allDepth : List Tree → Nat
  | [] => 0
  | t :: rest => max t.depth (allDepth rest)

def branchDepth : List (Written Condition × List Tree) → Nat
  | [] => 0
  | (_, body) :: rest => max (allDepth body) (branchDepth rest)

def optionDepth : Option (List Tree) → Nat
  | none => 0
  | some body => allDepth body

end

open HeaderReader in
mutual

/-- Every tag of the part is well-formed where the given filters are active. -/
def Valid (lookup : FilterLookup) : Tree → Prop
  | text _ => True
  | output e => Pipeline.compile lookup e.source = .ok e
  | choice condition body more otherwise =>
    Condition.parse (Pipeline.compile lookup) condition.text = .ok condition.value ∧ AllValid lookup body ∧
      BranchesValid lookup more ∧ OptionValid lookup otherwise
  | loop names sequence _ body empty =>
    (names ≠ [] ∧ (∀ name ∈ names, Header.IsLoopName name) ∧ IsBit lookup sequence) ∧ AllValid lookup body ∧
      OptionValid lookup empty
  | binding assignments body =>
    (assignments ≠ [] ∧ ∀ a ∈ assignments, IsAssigned lookup a) ∧ AllValid lookup body
  | aliased e name body => (IsBit lookup e ∧ Text.IsName name) ∧ AllValid lookup body
  | equality _ left right whenTrue whenFalse =>
    (IsBit lookup left ∧ IsBit lookup right) ∧ AllValid lookup whenTrue ∧ OptionValid lookup whenFalse
  | firstTrue candidates => candidates ≠ [] ∧ ∀ e ∈ candidates, IsBit lookup e
  | spaceless body => AllValid lookup body
  | filtered chain body => Pipeline.compileChain lookup chain.text = .ok chain.value ∧ AllValid lookup body

def AllValid (lookup : FilterLookup) : List Tree → Prop
  | [] => True
  | t :: rest => t.Valid lookup ∧ AllValid lookup rest

def BranchesValid (lookup : FilterLookup) : List (Written Condition × List Tree) → Prop
  | [] => True
  | (condition, body) :: rest =>
    Condition.parse (Pipeline.compile lookup) condition.text = .ok condition.value ∧ AllValid lookup body ∧
      BranchesValid lookup rest

def OptionValid (lookup : FilterLookup) : Option (List Tree) → Prop
  | none => True
  | some body => AllValid lookup body

end

end Tree

end TextTemplate
