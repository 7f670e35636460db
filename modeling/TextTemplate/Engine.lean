import TextTemplate.Config.Files
import TextTemplate.Node.Render

/-!
# The engine

An engine ties a configuration, a registry of libraries and a set of files together. It compiles templates
from source or from files; a template from a file is kept under its name until the cache is cleared. A name
is looked for in the configured directories in order; a name that is absolute or goes up is never looked for.
-/

namespace TextTemplate

/-- Why an engine could not be set up, or could not give or render a template. -/
inductive EngineError where
  | config (fault : ConfigFault)
  | notFound (name : String) (searched : List String)
  /-- The path of a template has a name that is too long. -/
  | nameTooLong
  | undecodable (fault : DecodeFault)
  | compile (e : CompileError)
  | render (e : RenderError)

/-- The text of a template that was not found. -/
def EngineError.notFoundMessage (name : String) (searched : List String) : String :=
  "Template '" ++ name ++ "' not found" ++
    (if searched.isEmpty then "" else ". Searched: " ++ ", ".intercalate searched)

structure Template where
  /-- Tells templates of one engine apart. -/
  serial : Nat
  name : Option String
  source : String
  nodes : List Node

namespace Template

/-- The template as diagnostics show it. -/
def shown (t : Template) : String :=
  let name := t.name.getD ""
  "Template(" ++ Text.quoted (if name.isEmpty then "<string>" else name) ++ ")"

/-- Render with a context and a store; the state after rendering comes with every outcome. -/
def renderWith (t : Template) (s : RenderState) : Except RenderError String × RenderState :=
  match (Node.renderAll t.nodes).run s with
  | .ok text s' => (.ok text, s')
  | .error e s' => (.error e, s')

end Template

structure Engine where
  config : Config
  registry : Registry TagFactory Filter
  /-- The libraries that are active in every template. -/
  builtins : List Nat
  /-- Templates from files, by name. -/
  cache : List (String × Template)
  /-- How many templates the engine has made. -/
  made : Nat

namespace Engine

/-- Declare the standard libraries under the names that are free. -/
def registerStandard (standard : List (String × LibraryTarget)) (r : Registry TagFactory Filter) :
    Registry TagFactory Filter :=
  standard.foldl (fun r e =>
    match r.registerDeferred e.1 e.2 with
    | .ok r' => r'
    | .error _ => r) r

/-- Declare the libraries of a configuration; their names must be free. -/
def registerConfigured : List (String × String) → Registry TagFactory Filter →
    Except ConfigFault (Registry TagFactory Filter)
  | [], r => .ok r
  | (name, target) :: rest, r => do
    match r.registerDeferred name (← Config.target target) with
    | .ok r' => registerConfigured rest r'
    | .error _ => throw (.libraryTaken name)

/-- Find the libraries that are active in every template. -/
def findBuiltins : List String → Registry TagFactory Filter →
    Except CompileError (List Nat × Registry TagFactory Filter)
  | [], r => .ok ([], r)
  | name :: rest, r =>
    match r.take name with
    | .error reason => .error (.ofCause (.unknownLibrary name reason))
    | .ok (number, r) => do
      let (numbers, r) ← findBuiltins rest r
      return (number :: numbers, r)

/-- Set up an engine; `standard` says where the standard libraries are fetched from. -/
def new (config : Config) (standard : List (String × LibraryTarget)) (r : Registry TagFactory Filter) :
    Except EngineError Engine :=
  match registerConfigured config.libraries (registerStandard standard r) with
  | .error fault => .error (.config fault)
  | .ok r =>
    match findBuiltins config.builtins r with
    | .error e => .error (.compile e)
    | .ok (builtins, r) => .ok ⟨config, r, builtins, [], 0⟩

/-- What templates of the engine are compiled with. -/
def environment (e : Engine) : Environment :=
  ⟨e.registry.shelf, e.registry.find, e.config.precedence⟩

/-- Compile source in a session of its own. -/
def compile (e : Engine) (source : String) : Except CompileError (List Node) :=
  e.environment.compile e.builtins source

/-- Make a template of source. -/
def ofString (e : Engine) (source : String) (name : Option String) :
    Except CompileError (Template × Engine) := do
  let nodes ← e.compile source
  return (⟨e.made, name, source, nodes⟩, { e with made := e.made + 1 })

/-- Whether a template name may be looked for: it is neither absolute nor goes up. -/
def isInside (name : Path) : Bool := !name.isAbsolute && !name.parts.contains ".."

/-- The bytes of the first of the candidates that is a file, if there is one. -/
def firstFile (fs : Files) : List Path → Except NameTooLong (Option ByteArray)
  | [] => .ok none
  | candidate :: rest => do
    match ← fs.file? candidate with
    | some bytes => return some bytes
    | none => firstFile fs rest

/-- The bytes of the template file of a name. -/
def findFile (e : Engine) (fs : Files) (name : String) : Except EngineError ByteArray :=
  let path := Path.ofString name
  if isInside path then
    let candidates := e.config.dirs.map (·.join path)
    match firstFile fs candidates with
    | .ok (some bytes) => .ok bytes
    | .ok none => .error (.notFound name (candidates.map Path.toString))
    | .error _ => .error .nameTooLong
  else .error (.notFound name [])

/-- Read and compile the template file of a name. -/
def loadTemplate (e : Engine) (fs : Files) (name : String) : Except EngineError (Template × Engine) := do
  let bytes ← e.findFile fs name
  match Files.decode e.config.encoding bytes with
  | .error fault => throw (.undecodable fault)
  | .ok source =>
    match e.ofString source (some name) with
    | .error error => throw (.compile error)
    | .ok (t, e) => return (t, { e with cache := e.cache ++ [(name, t)] })

/-- The template of a name: the one kept under it, or else the one in its file, which is then kept. -/
def getTemplate (e : Engine) (fs : Files) (name : String) : Except EngineError (Template × Engine) :=
  match e.cache.lookup name with
  | some t => .ok (t, e)
  | none => e.loadTemplate fs name

/-- Forget all templates. -/
def clearCache (e : Engine) : Engine := { e with cache := [] }

/-- Render a template with data whose idents are below `fresh`. -/
def render (e : Engine) (t : Template) (data : Scope) (fresh : Ident) : Except RenderError String :=
  (t.renderWith ⟨.ofScope data e.config.ifInvalid, .empty fresh⟩).1

/-- The own name of the library that a name stands for. -/
def findLibrary (e : Engine) (name : String) : Except CompileError String :=
  match e.registry.find name with
  | .ok number => .ok (e.registry.ownName number)
  | .error reason => .error (.ofCause (.unknownLibrary name reason))

end Engine

end TextTemplate
