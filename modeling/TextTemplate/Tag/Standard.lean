import TextTemplate.Compile.Session
import TextTemplate.Condition.Parse
import TextTemplate.Tag.Header

/-!
# The standard tags

Each tag reads its header, and a block tag then has its body compiled up to its end tag. The tags use nothing
of the compiler but the handle and the token stream.
-/

namespace TextTemplate.StandardTag

open CompileM

/-- `load`: activate libraries for the rest of the template. -/
def load : TagFactory := fun content h => do
  let names := (Text.words content.toList).map String.ofList
  if names.isEmpty then failHeader .libraryNameExpected
  else
    names.forM fun name => do
      let _ ← h.load name
    return none

/-- `comment`: drop everything up to the end tag unread. -/
def comment : TagFactory := fun _ _ => do
  skipPast "endcomment"
  return none

/-- The source of the tokens up to the end tag of `verbatim`, read in at most `rounds` rounds. -/
def verbatimWithin : (rounds : Nat) → CompileM (List String)
  | 0 => fail .noProgress
  | n + 1 => do
    if ← hasNext then
      let t ← next
      if t.isBlock "endverbatim" then return [] else return t.raw :: (← verbatimWithin n)
    else throw ⟨.unclosedTag (some "verbatim") ["endverbatim"], some (← currentToken).line⟩

/-- `verbatim`: the source up to the end tag as text. -/
def verbatim : TagFactory := fun _ _ => do
  return some (.text (String.join (← verbatimWithin (← rounds))))

/-- Compile the condition of an `if` or `elif` tag. -/
def condition (h : Handle) (tag text : String) : CompileM Condition := do
  if text.isEmpty then failHeader (.conditionExpected tag)
  else
    let lookup ← h.filters
    ofResult (Condition.parse (Pipeline.compile lookup) text)

/-- The tags that end a branch of `if`. -/
def branchEnds : List String := ["elif", "else", "endif"]

/-- The branches that start with `elif`, given the tag that ended the branch before; the answer also has the
tag that ends the last one. -/
def elifBranches (h : Handle) : (rounds : Nat) → Token → CompileM (List (Condition × List Node) × Token)
  | 0, _ => fail .noProgress
  | n + 1, t => do
    if t.tagName == "elif" then
      let c ← atLine t.line (condition h "elif" t.tagContent)
      let body ← h.parse branchEnds
      let (more, last) ← elifBranches h n (← next)
      return ((c, body) :: more, last)
    else return ([], t)

/-- The `else` branch of an `if` tag, if that is what the tag read last starts. -/
def elseBranch (h : Handle) (t : Token) : CompileM (Option (List Node)) := do
  if t.tagName == "else" then
    if t.tagContent.isEmpty then return some (← h.bodyUpTo "endif")
    else throw ⟨.header (.noArgumentsTaken "else"), some t.line⟩
  else return none

/-- `if`: the first branch whose condition holds. -/
def conditional : TagFactory := fun content h => do
  let c ← condition h "if" content
  let body ← h.parse branchEnds
  let (more, last) ← elifBranches h (← rounds) (← next)
  let otherwise ← elseBranch h last
  return some (.choice ((c, body) :: more) otherwise)

/-- A further body after a tag such as `else` or `empty`, if that is the tag that ended the first one. -/
def secondBody (h : Handle) (separator endTag : String) : CompileM (List Node) := do
  if (← next).tagName == separator then h.bodyUpTo endTag else return []

/-- `for`: the body once for each item of a sequence, or the part after `empty`. -/
def loop : TagFactory := fun content h => do
  match Header.loop content with
  | .error fault => failHeader fault
  | .ok header =>
    let sequence ← h.expression header.sequence
    let body ← h.parse ["empty", "endfor"]
    let empty ← secondBody h "empty" "endfor"
    return some (.loop header.names sequence header.reversed body empty)

/-- The assignments of a `with` tag, compiled one by one. -/
def assignments (h : Handle) : List String → CompileM (List (String × Expression))
  | [] => return []
  | bit :: rest => do
    match Header.assignment bit with
    | .error fault => failHeader fault
    | .ok (name, source) =>
      let e ← h.expression source
      return (name, e) :: (← assignments h rest)

/-- `with`: names bound for the body, as `name=expression` or `expression as name`. -/
def binding : TagFactory := fun content h => do
  let found ← match Bits.ofString content with
    | [source, "as", name] => do
      let e ← h.expression source
      pure [(name, e)]
    | bits => assignments h bits
  if found.isEmpty then failHeader .assignmentExpected
  else return some (.binding found (← h.bodyUpTo "endwith"))

/-- `ifequal` and `ifnotequal`: compare two operands. -/
def equality (tag : String) (negated : Bool) : TagFactory := fun content h => do
  match Bits.ofString content with
  | [a, b] =>
    let left ← h.expression a
    let right ← h.expression b
    let whenTrue ← h.parse ["else", "end" ++ tag]
    let whenFalse ← secondBody h "else" ("end" ++ tag)
    return some (.equality negated left right whenTrue whenFalse)
  | _ => failHeader (.twoArgumentsExpected tag)

/-- `firstof`: the first argument that is true. -/
def firstOf : TagFactory := fun content h => do
  let bits := Bits.ofString content
  if bits.isEmpty then failHeader .argumentExpected
  else return some (.firstTrue (← h.expressions bits))

/-- `templatetag`: a symbol of the template language as text. -/
def symbol : TagFactory := fun content _ => do
  match Header.symbol content with
  | .ok s => return some (.text s)
  | .error fault => failHeader fault

/-- `spaceless`: the body without blanks between angle brackets. -/
def spaceless : TagFactory := fun _ h => do
  return some (.spaceless (← h.bodyUpTo "endspaceless"))

/-- `filter`: the rendered body through a chain of filters. -/
def filtered : TagFactory := fun content h => do
  let lookup ← h.filters
  let calls ← ofResult (Pipeline.compileChain lookup content)
  return some (.filtered calls (← h.bodyUpTo "endfilter"))

/-- The standard tags under their names. -/
def all : List (String × TagFactory) := [
  ("load", load),
  ("comment", comment),
  ("verbatim", verbatim),
  ("if", conditional),
  ("for", loop),
  ("with", binding),
  ("ifequal", equality "ifequal" false),
  ("ifnotequal", equality "ifnotequal" true),
  ("firstof", firstOf),
  ("templatetag", symbol),
  ("spaceless", spaceless),
  ("filter", filtered)]

end TextTemplate.StandardTag
