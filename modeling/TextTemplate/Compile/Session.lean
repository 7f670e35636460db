import TextTemplate.Expression.Pipeline
import TextTemplate.Library
import TextTemplate.Node
import TextTemplate.Token.Stream

/-!
# Compile sessions

One run of the compiler over a token stream: what is left to read, which libraries are active in the order in
which they were loaded, and which block tags are being compiled. A tag sees the compiler only through a
handle, so the tags of a host are built in the same way as the standard ones.
-/

namespace TextTemplate

structure Session where
  stream : TokenStream
  /-- The active libraries in load order, by their numbers. -/
  active : List Nat
  /-- The block tags being compiled, innermost first. -/
  openTags : List Token

/-- Computations of the compiler; what they did before they fail stays done. -/
abbrev CompileM := EStateM CompileError Session

/-- What a tag can ask of the compiler, besides reading tokens. -/
structure Handle where
  /-- Compile up to a block tag of one of the given names, which stays in the stream. -/
  parse : List String → CompileM (List Node)
  /-- Activate a library for the rest of the session; the answer is its own name. -/
  load : String → CompileM String
  /-- The filters of the libraries that are active now. -/
  filters : CompileM FilterLookup
  /-- Compile a tag of the given name and content in place of the present one. -/
  callTag : String → String → CompileM (Option Node)

/-- Compiles one block tag from its content. It may read on to build a body, and may add no node. -/
abbrev TagFactory := String → Handle → CompileM (Option Node)

/-- A library as the compiler uses it. -/
abbrev TagLibrary := Library TagFactory Filter

namespace CompileM

/-- Run a computation on the token stream. -/
def onStream {α : Type} (m : StreamM α) : CompileM α := fun s =>
  match m s.stream with
  | .ok a stream => .ok a { s with stream := stream }
  | .error e stream => .error e { s with stream := stream }

def hasNext : CompileM Bool := onStream TokenStream.hasNext

def next : CompileM Token := onStream TokenStream.next

def prepend (t : Token) : CompileM Unit := onStream (TokenStream.prepend t)

def deleteNext : CompileM Unit := onStream TokenStream.deleteNext

/-- A bound for loops that take a token in every round but the last. -/
def rounds : CompileM Nat := do return (← get).stream.unread.length + 1

/-- The block tag being compiled. -/
def currentToken : CompileM Token := do
  match (← get).openTags with
  | t :: _ => return t
  | [] => throw (.ofCause .noOpenTag)

def fail {α : Type} (cause : CompileCause) : CompileM α := throw (.ofCause cause)

/-- Fail over the header of a tag. -/
def failHeader {α : Type} (fault : HeaderFault) : CompileM α := fail (.header fault)

def ofResult {α : Type} : Except CompileError α → CompileM α
  | .ok a => pure a
  | .error e => throw e

/-- Give a failure the line of a token, unless it has one. -/
def atLine {α : Type} (line : Nat) (m : CompileM α) : CompileM α := fun s =>
  match m s with
  | .error e s' => .error (e.atLine line) s'
  | result => result

/-- Compile a block tag: while its factory runs it is the innermost open tag. -/
def withOpenTag {α : Type} (t : Token) (m : CompileM α) : CompileM α := fun s =>
  match m { s with openTags := t :: s.openTags } with
  | .ok a s' => .ok a { s' with openTags := s.openTags }
  | .error e s' => .error (e.atLine t.line) { s' with openTags := s.openTags }

/-- The failure that none of the expected block tags was found. -/
def unclosed (expected : List String) (s : Session) : CompileError :=
  match s.openTags with
  | t :: _ => ⟨.unclosedTag (some t.tagName) expected, some t.line⟩
  | [] => ⟨.unclosedTag none expected, s.stream.endLine⟩

/-- Drop tokens up to and with the block tag of the given name, in at most `rounds` rounds. -/
def skipWithin (name : String) : (rounds : Nat) → CompileM Unit
  | 0 => fail .noProgress
  | n + 1 => do
    if ← hasNext then
      if (← next).isBlock name then return () else skipWithin name n
    else throw (unclosed [name] (← get))

/-- Drop tokens up to and with the block tag of the given name, whatever they are. -/
def skipPast (name : String) : CompileM Unit := do skipWithin name (← rounds)

end CompileM

namespace Handle

/-- Compile an expression with the filters that are active now. -/
def expression (h : Handle) (source : String) : CompileM Expression := do
  let lookup ← h.filters
  CompileM.ofResult (Pipeline.compile lookup source)

/-- Compile several expressions in order. -/
def expressions (h : Handle) : List String → CompileM (List Expression)
  | [] => return []
  | source :: rest => do
    let e ← h.expression source
    return e :: (← h.expressions rest)

/-- Compile the body of a block up to its end tag, and take the end tag. -/
def bodyUpTo (h : Handle) (endTag : String) : CompileM (List Node) := do
  let body ← h.parse [endTag]
  CompileM.deleteNext
  return body

end Handle

end TextTemplate
