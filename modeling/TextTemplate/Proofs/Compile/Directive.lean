import TextTemplate.Proofs.Compile.Ending
import TextTemplate.Tag.Standard

/-!
# The standard tags as a closed set

With only the standard tags around, a block tag is one of twelve directives. What a directive reads from its
header is written here as a function of the active libraries and the header text, without the session around
it; each reader of a tag is shown to be that function.
-/

namespace TextTemplate

/-- The standard tags. -/
inductive Directive where
  | load
  | comment
  | verbatim
  | conditional
  | loop
  | binding
  | equality
  | inequality
  | firstOf
  | symbol
  | spaceless
  | filtered
  deriving DecidableEq, Repr

namespace Directive

def name : Directive → String
  | load => "load"
  | comment => "comment"
  | verbatim => "verbatim"
  | conditional => "if"
  | loop => "for"
  | binding => "with"
  | equality => "ifequal"
  | inequality => "ifnotequal"
  | firstOf => "firstof"
  | symbol => "templatetag"
  | spaceless => "spaceless"
  | filtered => "filter"

def factory : Directive → TagFactory
  | load => StandardTag.load
  | comment => StandardTag.comment
  | verbatim => StandardTag.verbatim
  | conditional => StandardTag.conditional
  | loop => StandardTag.loop
  | binding => StandardTag.binding
  | equality => StandardTag.equality "ifequal" false
  | inequality => StandardTag.equality "ifnotequal" true
  | firstOf => StandardTag.firstOf
  | symbol => StandardTag.symbol
  | spaceless => StandardTag.spaceless
  | filtered => StandardTag.filtered

def all : List Directive :=
  [load, comment, verbatim, conditional, loop, binding, equality, inequality, firstOf, symbol, spaceless,
    filtered]

/-- The directive of a name. -/
def ofName? (name : String) : Option Directive := all.find? (·.name == name)

theorem ofName?_eq_some_iff {name : String} {d : Directive} : ofName? name = some d ↔ d.name = name := by
  constructor
  · intro h
    simpa using List.find?_some h
  · rintro rfl
    cases d <;> decide

/-- A name stands for a standard tag exactly when it stands for a directive. -/
theorem lookup_standard (name : String) :
    StandardTag.all.lookup name = (ofName? name).map factory := by
  have hlookup (ds : List Directive) :
      (ds.map fun d => (d.name, d.factory)).lookup name = (ds.find? (·.name == name)).map factory := by
    induction ds with
    | nil => rfl
    | cons d ds ih =>
      by_cases h : d.name = name
      · simp [h]
      · have h' : (name == d.name) = false := by simpa using fun e => h e.symm
        simpa [Entries.lookup_cons, h, h'] using ih
  exact hlookup all

end Directive

namespace Environment

/-- No library of the environment has other tags than the standard ones; their filters are left open. -/
def StandardTagsOnly (env : Environment) : Prop :=
  ∀ l ∈ env.libraries, ∀ name factory, l.tag? name = some factory → StandardTag.all.lookup name = some factory

/-- The directive that a name stands for with the given libraries active. -/
def directive? (env : Environment) (active : List Nat) (name : String) : Option Directive :=
  if (env.tag? active name).isSome then Directive.ofName? name else none

theorem directive?_name {env : Environment} {active : List Nat} {name : String} {d : Directive}
    (h : env.directive? active name = some d) : d.name = name := by
  unfold directive? at h
  split at h
  · exact Directive.ofName?_eq_some_iff.mp h
  · simp at h

theorem directive?_isEmpty {env : Environment} {active : List Nat} {name : String} {d : Directive}
    (h : env.directive? active name = some d) : name.isEmpty = false := by
  rw [← directive?_name h]
  cases d <;> decide

/-- The tag found under a name is the factory of its directive. -/
theorem tag?_eq_directive? {env : Environment} (henv : env.StandardTagsOnly) (active : List Nat)
    (name : String) : env.tag? active name = (env.directive? active name).map Directive.factory := by
  unfold directive?
  cases h : env.tag? active name with
  | none => simp
  | some factory =>
    rw [Option.isSome_some, if_pos rfl, ← Directive.lookup_standard]
    obtain ⟨l, hl, hfind⟩ := List.exists_of_findSome?_eq_some h
    obtain ⟨i, -, hi⟩ := List.mem_filterMap.mp hl
    exact (henv l (List.mem_of_getElem? hi) name factory hfind).symm

/-- The libraries that are active after loading those of the given names one after the other. -/
def loadAll (env : Environment) : List String → List Nat → Except CompileError (List Nat)
  | [], active => .ok active
  | name :: rest, active =>
    match env.find name with
    | .error reason => .error (.ofCause (.unknownLibrary name reason))
    | .ok number => env.loadAll rest (active.filter (· != number) ++ [number])

end Environment

/-! ## What headers read -/

namespace HeaderReader

private def fault {α : Type} (f : HeaderFault) : Except CompileError α := .error (.ofCause (.header f))

/-- The condition of an `if` or `elif` tag. -/
def condition (lookup : FilterLookup) (tag text : String) : Except CompileError Condition :=
  if text.isEmpty then fault (.conditionExpected tag) else Condition.parse (Pipeline.compile lookup) text

/-- Expressions, compiled from left to right. -/
def expressions (lookup : FilterLookup) : List String → Except CompileError (List Expression)
  | [] => .ok []
  | source :: rest => do
    let e ← Pipeline.compile lookup source
    return e :: (← expressions lookup rest)

/-- Assignments, each compiled before the next one is read. -/
def assignments (lookup : FilterLookup) : List String → Except CompileError (List (String × Expression))
  | [] => .ok []
  | bit :: rest =>
    match Header.assignment bit with
    | .error f => fault f
    | .ok (name, source) => do
      let e ← Pipeline.compile lookup source
      return (name, e) :: (← assignments lookup rest)

/-- The names that a `with` tag binds, and the expressions it binds them to. -/
def bindings (lookup : FilterLookup) (content : String) :
    Except CompileError (List (String × Expression)) := do
  let found ← match Bits.ofString content with
    | [source, "as", name] => do
      let e ← Pipeline.compile lookup source
      pure [(name, e)]
    | bits => assignments lookup bits
  if found.isEmpty then fault .assignmentExpected else return found

/-- The names and the sequence of a `for` tag. -/
def loop (lookup : FilterLookup) (content : String) : Except CompileError (Header.Loop × Expression) :=
  match Header.loop content with
  | .error f => fault f
  | .ok header => do
    let sequence ← Pipeline.compile lookup header.sequence
    return (header, sequence)

/-- The two operands of `ifequal` or `ifnotequal`. -/
def operands (lookup : FilterLookup) (tag content : String) :
    Except CompileError (Expression × Expression) :=
  match Bits.ofString content with
  | [a, b] => do
    let left ← Pipeline.compile lookup a
    let right ← Pipeline.compile lookup b
    return (left, right)
  | _ => fault (.twoArgumentsExpected tag)

/-- The candidates of a `firstof` tag. -/
def candidates (lookup : FilterLookup) (content : String) : Except CompileError (List Expression) :=
  let bits := Bits.ofString content
  if bits.isEmpty then fault .argumentExpected else expressions lookup bits

/-- The symbol of a `templatetag` tag. -/
def symbol (content : String) : Except CompileError String :=
  match Header.symbol content with
  | .ok s => .ok s
  | .error f => fault f

/-- The form `expression as name` binds one name. -/
theorem bindings_alias {lookup : FilterLookup} {content source name : String}
    (h : Bits.ofString content = [source, "as", name]) : bindings lookup content = (do
      let e ← Pipeline.compile lookup source
      return [(name, e)]) := by
  unfold bindings
  simp only [h]
  cases Pipeline.compile lookup source <;> rfl

/-- All other headers are read as assignments. -/
theorem bindings_assignments {lookup : FilterLookup} {content : String}
    (h : ∀ source name, Bits.ofString content ≠ [source, "as", name]) : bindings lookup content = (do
      let found ← assignments lookup (Bits.ofString content)
      if found.isEmpty then fault .assignmentExpected else return found) := by
  unfold bindings
  split
  · exact absurd ‹_› (h _ _)
  · rfl

theorem operands_pair {lookup : FilterLookup} {tag content a b : String} (h : Bits.ofString content = [a, b]) :
    operands lookup tag content = (do
      let left ← Pipeline.compile lookup a
      let right ← Pipeline.compile lookup b
      return (left, right)) := by
  unfold operands
  simp only [h]

/-- Comparing takes two operands. -/
theorem operands_other {lookup : FilterLookup} {tag content : String}
    (h : ∀ a b, Bits.ofString content ≠ [a, b]) :
    operands lookup tag content = .error (.ofCause (.header (.twoArgumentsExpected tag))) := by
  unfold operands
  split
  · exact absurd ‹_› (h _ _)
  · rfl

/-- The libraries that are active after a `load` tag. -/
def load (env : Environment) (active : List Nat) (content : String) : Except CompileError (List Nat) :=
  let names := (Text.words content.toList).map String.ofList
  if names.isEmpty then fault .libraryNameExpected else env.loadAll names active

end HeaderReader

/-! ## Tags read what their headers say -/

section Readers

variable (env : Environment) (parse : List String → CompileM (List Node)) (calls : Nat) (s : Session)

@[simp] theorem handleWith_parse : (env.handleWith parse calls).parse = parse := by cases calls <;> rfl

theorem handleWith_filters_run :
    (env.handleWith parse calls).filters s = .ok (env.filterLookup s.active) s := by cases calls <;> rfl

theorem handleWith_load_run (name : String) :
    (env.handleWith parse calls).load name s = env.load name s := by cases calls <;> rfl

theorem expression_run (source : String) :
    (env.handleWith parse calls).expression source s =
      CompileM.ofResult (Pipeline.compile (env.filterLookup s.active) source) s := by
  cases calls <;> rfl

/-- Expressions are compiled from left to right up to the first that fails. -/
theorem expressions_run (sources : List String) :
    (env.handleWith parse calls).expressions sources s =
      CompileM.ofResult (HeaderReader.expressions (env.filterLookup s.active) sources) s := by
  induction sources with
  | nil => rfl
  | cons source rest ih =>
    rw [Handle.expressions, run_bind, expression_run, HeaderReader.expressions]
    cases Pipeline.compile (env.filterLookup s.active) source with
    | error e => rfl
    | ok e =>
      simp only [CompileM.ofResult_run, run_bind, ih]
      cases HeaderReader.expressions (env.filterLookup s.active) rest <;> rfl

theorem condition_run (tag text : String) :
    StandardTag.condition (env.handleWith parse calls) tag text s =
      CompileM.ofResult (HeaderReader.condition (env.filterLookup s.active) tag text) s := by
  unfold StandardTag.condition HeaderReader.condition
  split
  · rfl
  · rw [run_bind_ok (handleWith_filters_run env parse calls s)]

theorem assignments_run (bits : List String) :
    StandardTag.assignments (env.handleWith parse calls) bits s =
      CompileM.ofResult (HeaderReader.assignments (env.filterLookup s.active) bits) s := by
  induction bits with
  | nil => rfl
  | cons bit rest ih =>
    rw [StandardTag.assignments, HeaderReader.assignments]
    cases Header.assignment bit with
    | error f => rfl
    | ok found =>
      dsimp only
      rw [run_bind, expression_run]
      cases Pipeline.compile (env.filterLookup s.active) found.2 with
      | error e => rfl
      | ok e =>
        simp only [CompileM.ofResult_run, run_bind, ih]
        cases HeaderReader.assignments (env.filterLookup s.active) rest <;> rfl

/-- Loading changes nothing but the active libraries, also where it fails. -/
theorem load_run (names : List String) :
    match env.loadAll names s.active with
    | .ok active =>
      (names.forM fun name => do let _ ← (env.handleWith parse calls).load name) s =
        .ok () { s with active := active }
    | .error e => ∃ active,
      (names.forM fun name => do let _ ← (env.handleWith parse calls).load name) s =
        .error e { s with active := active } := by
  induction names generalizing s with
  | nil => rfl
  | cons name rest ih =>
    rw [Environment.loadAll]
    have hload : (env.handleWith parse calls).load name s = env.load name s :=
      handleWith_load_run env parse calls s name
    cases hfind : env.find name with
    | error reason =>
      refine ⟨s.active, ?_⟩
      rw [List.forM, run_bind, run_bind, hload, Environment.load, hfind]
      rfl
    | ok number =>
      have hstep := ih { s with active := s.active.filter (· != number) ++ [number] }
      have hfirst : (do let _ ← (env.handleWith parse calls).load name : CompileM Unit) s =
          .ok () { s with active := s.active.filter (· != number) ++ [number] } := by
        rw [run_bind, hload, Environment.load, hfind]
        rfl
      rw [List.forM, run_bind_ok hfirst]
      exact hstep

end Readers

end TextTemplate
