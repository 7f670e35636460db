import TextTemplate.Proofs.Compile.Building
import TextTemplate.Proofs.Compile.HostTag

/-!
# The standard tags as scripts

The standard tags ask nothing of the compiler that a tag of a host could not ask. Each is written here as the
script of its requests, and is shown to do what the script says: first the parts that several tags share, then
`if` with its branches, then each tag.
-/

namespace TextTemplate

open CompileM

namespace TagScript

variable {α : Type}

/-- Go on with an answer, or raise the failure. -/
def ofResult (r : Except CompileError α) (continuation : α → TagScript) : TagScript :=
  match r with
  | .ok a => continuation a
  | .error e => raise e

/-- Read a header with the filters that are active now. -/
def reading (read : FilterLookup → Except CompileError α) (continuation : α → TagScript) : TagScript :=
  ask .filters fun lookup => ofResult (read lookup) continuation

/-- Compile the body of a block up to its end tag, and take the end tag. -/
def bodyUpTo (endTag : String) (continuation : List Node → TagScript) : TagScript :=
  ask (.parse [endTag]) fun body => ask .next fun _ => continuation body

/-- A further body after a separator, if that is the tag that ended the first one. -/
def secondBody (separator endTag : String) (continuation : List Node → TagScript) : TagScript :=
  ask .next fun t => if t.tagName == separator then bodyUpTo endTag continuation else continuation []

/-- Load libraries one after the other, up to the first that cannot be loaded. -/
def loadAll : List String → TagScript
  | [] => done none
  | name :: rest => ask (.load name) fun _ => loadAll rest

/-- Take tokens up to the end tag of `verbatim`, in at most `rounds` rounds. -/
def verbatimWithin : (rounds : Nat) → (List String → TagScript) → TagScript
  | 0, _ => raise (.ofCause .noProgress)
  | n + 1, continuation => ask .hasNext fun more =>
    if more then ask .next fun t =>
      if t.isBlock "endverbatim" then continuation []
      else verbatimWithin n fun rest => continuation (t.raw :: rest)
    else ask .currentToken fun t =>
      raise ⟨.unclosedTag (some "verbatim") ["endverbatim"], some t.line⟩

/-- The branches that start with `elif`, given the tag that ended the branch before. -/
def elifBranches : (rounds : Nat) → Token →
    (List (Condition × List Node) × Token → TagScript) → TagScript
  | 0, _, _ => raise (.ofCause .noProgress)
  | n + 1, t, continuation =>
    if t.tagName == "elif" then
      ask .filters fun lookup =>
        match HeaderReader.condition lookup "elif" t.tagContent with
        | .error e => raise (e.atLine t.line)
        | .ok c => ask (.parse StandardTag.branchEnds) fun body => ask .next fun t' =>
          elifBranches n t' fun found => continuation ((c, body) :: found.1, found.2)
    else continuation ([], t)

/-- The `else` branch of an `if` tag, if that is what the tag read last starts. -/
def elseBranch (t : Token) (continuation : Option (List Node) → TagScript) : TagScript :=
  if t.tagName == "else" then
    if t.tagContent.isEmpty then bodyUpTo "endif" fun body => continuation (some body)
    else raise ⟨.header (.noArgumentsTaken "else"), some t.line⟩
  else continuation none

/-! ## What the parts do -/

variable {env : Environment} {parse : List String → CompileM (List Node)} {calls : Nat} {s : Session}

theorem ofResult_run (r : Except CompileError α) (continuation : α → TagScript) (h : Handle) :
    (ofResult r continuation).run h = CompileM.ofResult r >>= fun a => (continuation a).run h := by
  cases r <;> rfl

theorem reading_run (read : FilterLookup → Except CompileError α) (continuation : α → TagScript) :
    (reading read continuation).run (env.handleWith parse calls) s =
      (CompileM.ofResult (read (env.filterLookup s.active)) >>= fun a =>
        (continuation a).run (env.handleWith parse calls)) s := by
  rw [reading, run, Request.run, run_bind_ok (handleWith_filters_run env parse calls s), ofResult_run]

theorem bodyUpTo_run (endTag : String) (continuation : List Node → TagScript) (h : Handle) :
    (bodyUpTo endTag continuation).run h = h.bodyUpTo endTag >>= fun body => (continuation body).run h := by
  simp only [bodyUpTo, run, Request.run, Handle.bodyUpTo, deleteNext_eq, bind_assoc, pure_bind]

theorem secondBody_run (separator endTag : String) (continuation : List Node → TagScript) (h : Handle) :
    (secondBody separator endTag continuation).run h =
      StandardTag.secondBody h separator endTag >>= fun body => (continuation body).run h := by
  simp only [secondBody, run, Request.run, StandardTag.secondBody, bind_assoc]
  congr 1
  funext t
  split
  · exact bodyUpTo_run endTag continuation h
  · rfl

theorem loadAll_run (names : List String) (h : Handle) :
    (loadAll names).run h = (do
      names.forM fun name => do
        let _ ← h.load name
      return none) := by
  induction names with
  | nil => rfl
  | cons name rest ih =>
    rw [loadAll, run, List.forM]
    simp only [ih, Request.run, bind_assoc, pure_bind]

theorem verbatimWithin_run (n : Nat) (continuation : List String → TagScript) (h : Handle) :
    (verbatimWithin n continuation).run h =
      StandardTag.verbatimWithin n >>= fun found => (continuation found).run h := by
  induction n generalizing continuation with
  | zero => rfl
  | succ n ih =>
    rw [verbatimWithin, run, StandardTag.verbatimWithin, bind_assoc]
    congr 1
    funext more
    cases more with
    | false =>
      simp only [Bool.false_eq_true, if_false, run, bind_assoc]
      rfl
    | true =>
      simp only [if_true, run, Request.run, bind_assoc]
      congr 1
      funext t
      split
      · rfl
      · simp only [ih, bind_assoc, pure_bind]

theorem elifBranches_run (n : Nat) (t : Token)
    (continuation : List (Condition × List Node) × Token → TagScript) :
    (elifBranches n t continuation).run (env.handleWith parse calls) =
      StandardTag.elifBranches (env.handleWith parse calls) n t >>= fun found =>
        (continuation found).run (env.handleWith parse calls) := by
  induction n generalizing t continuation with
  | zero => rfl
  | succ n ih =>
    funext s
    rw [elifBranches, StandardTag.elifBranches]
    split
    · rw [run, Request.run, run_bind_ok (handleWith_filters_run env parse calls s), bind_assoc, run_bind, atLine,
        condition_run]
      cases HeaderReader.condition (env.filterLookup s.active) "elif" t.tagContent with
      | error e => rfl
      | ok c =>
        simp only [CompileM.ofResult_run, run, Request.run, handleWith_parse, ih, bind_assoc, pure_bind]
    · rfl

theorem elseBranch_run (t : Token) (continuation : Option (List Node) → TagScript) (h : Handle) :
    (elseBranch t continuation).run h =
      StandardTag.elseBranch h t >>= fun found => (continuation found).run h := by
  rw [elseBranch, StandardTag.elseBranch]
  split
  · split
    · simp only [bodyUpTo_run, bind_assoc, pure_bind]
    · rfl
  · rfl

end TagScript

namespace Directive

open TagScript

/-- What a standard tag does. -/
def script : Directive → String → TagScript
  | load, content =>
    let names := (Text.words content.toList).map String.ofList
    if names.isEmpty then raise (.ofCause (.header .libraryNameExpected)) else loadAll names
  | comment, _ => ask (.skipPast "endcomment") fun _ => done none
  | verbatim, _ => ask .rounds fun n => verbatimWithin n fun found => done (some (.text (String.join found)))
  | conditional, content => reading (HeaderReader.condition · "if" content) fun c =>
    ask (.parse StandardTag.branchEnds) fun body => ask .rounds fun n => ask .next fun t =>
      TagScript.elifBranches n t fun found => TagScript.elseBranch found.2 fun otherwise =>
        done (some (.choice ((c, body) :: found.1) otherwise))
  | loop, content => reading (HeaderReader.loop · content) fun found =>
    ask (.parse ["empty", "endfor"]) fun body => TagScript.secondBody "empty" "endfor" fun empty =>
      done (some (.loop found.1.names found.2 found.1.reversed body empty))
  | binding, content => reading (HeaderReader.bindings · content) fun found =>
    bodyUpTo "endwith" fun body => done (some (.binding found body))
  | equality, content => comparing "ifequal" false content
  | inequality, content => comparing "ifnotequal" true content
  | firstOf, content => reading (HeaderReader.candidates · content) fun found => done (some (.firstTrue found))
  | symbol, content => TagScript.ofResult (HeaderReader.symbol content) fun s => done (some (.text s))
  | spaceless, _ => bodyUpTo "endspaceless" fun body => done (some (.spaceless body))
  | filtered, content => reading (Pipeline.compileChain · content) fun calls =>
    bodyUpTo "endfilter" fun body => done (some (.filtered calls body))
where
  /-- The script of a comparing tag. -/
  comparing (tag : String) (negated : Bool) (content : String) : TagScript :=
    reading (HeaderReader.operands · tag content) fun found =>
      ask (.parse ["else", "end" ++ tag]) fun whenTrue =>
        TagScript.secondBody "else" ("end" ++ tag) fun whenFalse =>
          done (some (.equality negated found.1 found.2 whenTrue whenFalse))

variable {env : Environment} {parse : List String → CompileM (List Node)} {calls : Nat}

theorem comparing_run (tag : String) (negated : Bool) (content : String) :
    (script.comparing tag negated content).run (env.handleWith parse calls) =
      StandardTag.equality tag negated content (env.handleWith parse calls) := by
  funext s
  rw [equality_run, script.comparing, reading_run]
  simp only [run, Request.run, secondBody_run]

/-- Every standard tag follows its script. -/
theorem script_run (d : Directive) (content : String) :
    d.factory content (env.handleWith parse calls) = (d.script content).run (env.handleWith parse calls) := by
  symm
  cases d with
  | load =>
    rw [script]
    split
    · rename_i hnames
      simp only [factory, StandardTag.load, hnames, if_true]
      rfl
    · rename_i hnames
      simp only [factory, StandardTag.load, hnames, loadAll_run]
      rfl
  | comment => rfl
  | verbatim => simp only [script, run, Request.run, verbatimWithin_run, factory, StandardTag.verbatim]
  | conditional =>
    funext s
    simp only [script, reading_run, run, Request.run, elifBranches_run, elseBranch_run, factory,
      StandardTag.conditional, handleWith_parse]
    rw [run_bind, run_bind, condition_run]
  | loop =>
    funext s
    simp only [script, reading_run, run, Request.run, secondBody_run, factory, StandardTag.loop, HeaderReader.loop]
    cases Header.loop content with
    | error fault => rfl
    | ok header =>
      dsimp only
      rw [run_bind, run_bind, expression_run]
      cases Pipeline.compile (env.filterLookup s.active) header.sequence <;> rfl
  | binding =>
    funext s
    simp only [script, reading_run, run, bodyUpTo_run, factory, binding_run]
  | equality => exact comparing_run "ifequal" false content
  | inequality => exact comparing_run "ifnotequal" true content
  | firstOf =>
    funext s
    simp only [script, reading_run, run, factory, StandardTag.firstOf, HeaderReader.candidates]
    split
    · rfl
    · rw [run_bind, run_bind, expressions_run]
  | symbol =>
    simp only [script, TagScript.ofResult_run, factory, StandardTag.symbol, HeaderReader.symbol]
    cases Header.symbol content <;> rfl
  | spaceless => simp only [script, bodyUpTo_run, run, factory, StandardTag.spaceless]
  | filtered =>
    funext s
    rw [script, reading_run, factory, StandardTag.filtered, run_bind_ok (handleWith_filters_run env parse calls s)]
    simp only [bodyUpTo_run, run]

end Directive

end TextTemplate
