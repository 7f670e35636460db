import TextTemplate.Compile.Session

/-!
# Compiling

Tokens are compiled one after the other until a block tag of the stop set or the end. The compiler knows no
block tag itself: each name is resolved in the active libraries, and the tag found compiles itself through a
handle. At most `maxOpenTags` block tags may be open at once; the handle that a tag gets has room for one
less than the one before it.
-/

namespace TextTemplate

/-- Which active library wins if several have a tag or filter of one name. -/
inductive Precedence where
  /-- The one loaded last. -/
  | latest
  /-- The one loaded first. -/
  | earliest
  deriving DecidableEq, Repr

/-- What a session is run with. Libraries are known by their position in `libraries`. -/
structure Environment where
  libraries : List TagLibrary
  /-- The number of the library that a name stands for, or the reason why there is none. -/
  find : String → Except String Nat
  precedence : Precedence

namespace Environment

/-- The most block tags that may be open at once. -/
def maxOpenTags : Nat := 64

/-- The active libraries, the one that wins first. -/
def inOrder (env : Environment) (active : List Nat) : List TagLibrary :=
  (match env.precedence with
    | .latest => active.reverse
    | .earliest => active).filterMap (env.libraries[·]?)

def tag? (env : Environment) (active : List Nat) (name : String) : Option TagFactory :=
  (env.inOrder active).findSome? (·.tag? name)

def filter? (env : Environment) (active : List Nat) (name : String) : Option Filter :=
  (env.inOrder active).findSome? (·.filter? name)

/-- The filters of the given active libraries. -/
def filterLookup (env : Environment) (active : List Nat) : FilterLookup := fun name =>
  match env.filter? active name with
  | some f => .ok f
  | none => .error (.ofCause (.unknownFilter name))

/-- Activate a library: it becomes the one loaded last. -/
def load (env : Environment) (name : String) : CompileM String := do
  match env.find name with
  | .error reason => CompileM.fail (.unknownLibrary name reason)
  | .ok number =>
    modify fun s => { s with active := s.active.filter (· != number) ++ [number] }
    return ((env.libraries[number]?).map (·.name)).getD name

def findTag (env : Environment) (name : String) : CompileM TagFactory := do
  match env.tag? (← get).active name with
  | some factory => return factory
  | none => CompileM.fail (.unknownTag name [])

/-- The handle with which bodies are compiled by `parse`, and tags can call each other `calls` deep. -/
def handleWith (env : Environment) (parse : List String → CompileM (List Node)) : (calls : Nat) → Handle
  | 0 => ⟨parse, env.load, return env.filterLookup (← get).active, fun _ _ => CompileM.fail .noProgress⟩
  | calls + 1 =>
    ⟨parse, env.load, return env.filterLookup (← get).active, fun name content => do
      let factory ← env.findTag name
      factory content (env.handleWith parse calls)⟩

/-- Compile the expression of a variable tag. -/
def compileVariable (env : Environment) (t : Token) : CompileM Expression := do
  let lookup := env.filterLookup (← get).active
  CompileM.atLine t.line (CompileM.ofResult (Pipeline.compile lookup t.content))

/-- Compile a block tag. `inner` compiles bodies inside it, if one more tag may be open. -/
def compileBlock (env : Environment) (inner : Option (List String → CompileM (List Node)))
    (t : Token) (stop : List String) : CompileM (Option Node) := do
  match env.tag? (← get).active t.tagName with
  | none => throw ⟨.unknownTag t.tagName stop, some t.line⟩
  | some factory =>
    match inner with
    | none => throw ⟨.tooManyOpenTags maxOpenTags, some t.line⟩
    | some parse =>
      CompileM.withOpenTag t (factory t.tagContent (env.handleWith parse t.content.length))

/-- Compile tokens up to a block tag of the stop set or the end, in at most `rounds` rounds. -/
def parseWithin (env : Environment) (inner : Option (List String → CompileM (List Node)))
    (stop : List String) : (rounds : Nat) → CompileM (List Node)
  | 0 => CompileM.fail .noProgress
  | n + 1 => do
    if ← CompileM.hasNext then
      let t ← CompileM.next
      match t.kind with
      | .text => return .text t.content :: (← env.parseWithin inner stop n)
      | .variable =>
        if t.content.isEmpty then throw ⟨.emptyVariableTag, some t.line⟩
        else
          let e ← env.compileVariable t
          return .output e :: (← env.parseWithin inner stop n)
      | .comment => env.parseWithin inner stop n
      | .block =>
        if t.tagName.isEmpty then throw ⟨.emptyBlockTag, some t.line⟩
        else if stop.contains t.tagName then
          CompileM.prepend t
          return []
        else
          let node ← env.compileBlock inner t stop
          return node.toList ++ (← env.parseWithin inner stop n)
    else if stop.isEmpty then return []
    else throw (CompileM.unclosed stop (← get))

/-- Compile with room for `room` more open block tags. -/
def parseAt (env : Environment) : (room : Nat) → List String → CompileM (List Node)
  | 0, stop => do env.parseWithin none stop (← CompileM.rounds)
  | room + 1, stop => do env.parseWithin (some (env.parseAt room)) stop (← CompileM.rounds)

/-- Compile tokens up to a block tag of the stop set, or to the end if the set is empty. -/
def parse (env : Environment) (stop : List String) : CompileM (List Node) :=
  env.parseAt maxOpenTags stop

/-- The handle of the compiler outside all block tags. -/
def handle (env : Environment) (calls : Nat) : Handle := env.handleWith env.parse calls

/-- Compile a tag on its own, outside all block tags. -/
def callTag (env : Environment) (name content : String) : CompileM (Option Node) :=
  (env.handle (content.length + 1)).callTag name content

end Environment

namespace Session

def ofStream (stream : TokenStream) (base : List Nat) : Session := ⟨stream, base, []⟩

/-- A session over source that starts with the given libraries. -/
def ofSource (source : String) (base : List Nat) : Session := ofStream (.ofSource source) base

end Session

/-- Compile source with the given libraries active from the start. -/
def Environment.compile (env : Environment) (base : List Nat) (source : String) :
    Except CompileError (List Node) :=
  match (env.parse []).run (Session.ofSource source base) with
  | .ok nodes _ => .ok nodes
  | .error e _ => .error e

end TextTemplate
