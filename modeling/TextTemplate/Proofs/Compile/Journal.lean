import TextTemplate.Proofs.Library.Precedence
import TextTemplate.Proofs.Tag.Script

/-!
# Compiling with a journal

Source is compiled here with a journal of what the active libraries are asked for: the tags that are
dispatched, the filters that expressions are compiled with, and the loads. Each entry has the list of active
libraries at its time. Tags are run by their scripts, so that what they ask for can be seen. The journal adds
nothing to compiling: the answers, the failures and the sessions are those of compiling without one.
-/

namespace TextTemplate

/-! ## What tags do -/

/-- What a tag of a library does. -/
inductive TagRole where
  | standard (d : Directive)
  | host (script : String → TagScript)

/-- What each tag does, by the number of its library and its name. -/
abbrev TagRoles := Nat → String → TagRole

namespace TagRole

def script : TagRole → String → TagScript
  | standard d => d.script
  | host script => script

/-- The factory of a tag does what its role says. -/
def Suits (factory : TagFactory) : TagRole → Prop
  | standard d => factory = d.factory
  | host script => ∀ content h, factory content h = (script content).run h

end TagRole

namespace Environment

/-- The tags of all libraries do what their roles say. -/
def TagsSuit (env : Environment) (roles : TagRoles) : Prop :=
  ∀ number name factory, env.tagOf name number = some factory → (roles number name).Suits factory

variable {env : Environment} {roles : TagRoles} {number : Nat} {name : String} {factory : TagFactory}
  {parse : List String → CompileM (List Node)} {calls : Nat}

theorem TagsSuit.factory_run (h : env.TagsSuit roles) (hfactory : env.tagOf name number = some factory)
    (content : String) : factory content (env.handleWith parse calls) =
      ((roles number name).script content).run (env.handleWith parse calls) := by
  have hsuits := h number name factory hfactory
  cases hrole : roles number name with
  | standard d =>
    rw [hrole] at hsuits
    rw [show factory = d.factory from hsuits, Directive.script_run]
    rfl
  | host script =>
    rw [hrole] at hsuits
    exact hsuits content _

/-- Where a tag is found, and its factory. -/
def owner? (env : Environment) (active : List Nat) (name : String) : Option (Nat × TagFactory) :=
  (env.searched active).findSome? fun number => (env.tagOf name number).map (number, ·)

theorem tag?_eq_owner? (active : List Nat) (name : String) :
    env.tag? active name = (env.owner? active name).map (·.2) := by
  rw [tag?_eq, owner?, List.map_findSome?]
  congr 1
  funext number
  cases htag : env.tagOf name number <;> simp [htag]

theorem tagOf_of_owner? {active : List Nat} (h : env.owner? active name = some (number, factory)) :
    env.tagOf name number = some factory := by
  obtain ⟨number', -, hfound⟩ := List.exists_of_findSome?_eq_some h
  obtain ⟨factory', htag, hpair⟩ := Option.map_eq_some_iff.mp hfound
  cases hpair
  exact htag

end Environment

/-! ## Journals -/

/-- What the active libraries are asked for, with the answer. -/
inductive Inquiry where
  /-- A block tag of the source is dispatched, or found in no library. -/
  | tag (t : Token) (found : Option (Nat × TagFactory))
  /-- A tag is called by another one. -/
  | call (name content : String) (found : Option (Nat × TagFactory))
  /-- A variable tag is compiled with the filters that are active. -/
  | variable (t : Token) (filters : FilterLookup)
  /-- A block tag asks for the filters that are active. -/
  | header (filters : FilterLookup)
  /-- A library is loaded, if its name stands for one. -/
  | load (name : String) (found : Except String Nat)

structure Entry where
  /-- The libraries that are active when the inquiry is made. -/
  active : List Nat
  inquiry : Inquiry

namespace Entry

/-- The library that was loaded, if one was. -/
def loaded (e : Entry) : List Nat :=
  match e.inquiry with
  | .load _ (.ok number) => [number]
  | _ => []

/-- The answer is the one that the libraries active at the time give. -/
def IsAnswered (env : Environment) (e : Entry) : Prop :=
  match e.inquiry with
  | .tag t found => found = env.owner? e.active t.tagName
  | .call name _ found => found = env.owner? e.active name
  | .variable _ filters | .header filters => filters = env.filterLookup e.active
  | .load name found => found = env.find name

/-- The libraries that were loaded, in the order of the loads. -/
def allLoaded (entries : List Entry) : List Nat := entries.flatMap loaded

/-- Every inquiry of a journal was made with the libraries active that the loads before it give, and answered
by them; `loads` were made before the journal. -/
def Right (env : Environment) (base : List Nat) : (loads : List Nat) → List Entry → Prop
  | _, [] => True
  | loads, e :: rest =>
    e.active = activeAfter base loads ∧ e.IsAnswered env ∧ Right env base (loads ++ e.loaded) rest

variable {env : Environment} {base loads : List Nat}

theorem allLoaded_append (l l' : List Entry) : allLoaded (l ++ l') = allLoaded l ++ allLoaded l' :=
  List.flatMap_append

theorem right_append (l l' : List Entry) : Right env base loads (l ++ l') ↔
    Right env base loads l ∧ Right env base (loads ++ allLoaded l) l' := by
  induction l generalizing loads with
  | nil => simp [Right, allLoaded]
  | cons e l ih =>
    have hloads : loads ++ allLoaded (e :: l) = loads ++ e.loaded ++ allLoaded l := by
      rw [allLoaded, List.flatMap_cons, List.append_assoc]
      rfl
    rw [List.cons_append, Right, Right, ih, hloads, and_assoc, and_assoc]

/-- In a journal that is right, each entry is: its list of active libraries comes from the loads before it. -/
theorem Right.of_split {before after : List Entry} {e : Entry}
    (h : Right env base loads (before ++ e :: after)) :
    e.active = activeAfter base (loads ++ allLoaded before) ∧ e.IsAnswered env := by
  obtain ⟨-, hactive, hanswered, -⟩ := (right_append before (e :: after)).mp h
  exact ⟨hactive, hanswered⟩

end Entry

/-- Computations of the compiler that keep a journal. -/
def JournalM (α : Type) := Session → List Entry × EStateM.Result CompileError Session α

namespace JournalM

variable {α : Type}

instance : Monad JournalM where
  pure a := fun s => ([], .ok a s)
  bind m f := fun s =>
    match m s with
    | (entries, .ok a s') => (entries ++ (f a s').1, (f a s').2)
    | (entries, .error e s') => (entries, .error e s')

/-- The journal of a computation. -/
def entries (m : JournalM α) (s : Session) : List Entry := (m s).1

/-- The computation without its journal. -/
def plain (m : JournalM α) : CompileM α := fun s => (m s).2

/-- A computation that asks the libraries nothing. -/
def quietly (m : CompileM α) : JournalM α := fun s => ([], m s)

def note (inquiry : Inquiry) : JournalM Unit := fun s => ([⟨s.active, inquiry⟩], .ok () s)

def active : JournalM (List Nat) := quietly do return (← get).active

/-- Compile a block tag with a journal: while its script runs it is the innermost open tag. -/
def withOpenTag (t : Token) (m : JournalM α) : JournalM α := fun s =>
  (m.entries { s with openTags := t :: s.openTags }, CompileM.withOpenTag t m.plain s)

/-- Catch a failure; the journal of what failed stays. -/
def attempt (m : JournalM α) : JournalM (Except CompileError α) := fun s =>
  (m.entries s, CompileM.attempt m.plain s)

end JournalM

open JournalM

/-- What a tag asks for, with a journal. -/
def Request.journal (env : Environment) (parse : List String → JournalM (List Node))
    (call : String → String → JournalM (Option Node)) {α : Type} : Request α → JournalM α
  | .next => quietly CompileM.next
  | .hasNext => quietly CompileM.hasNext
  | .prepend t => quietly (CompileM.prepend t)
  | .skipPast name => quietly (CompileM.skipPast name)
  | .rounds => quietly CompileM.rounds
  | .currentToken => quietly CompileM.currentToken
  | .parse stop => parse stop
  | .load name => do
    note (.load name (env.find name))
    quietly (env.load name)
  | .filters => do
    let lookup := env.filterLookup (← active)
    note (.header lookup)
    return lookup
  | .callTag name content => call name content

/-- Run a tag, with a journal. -/
def TagScript.journal (env : Environment) (parse : List String → JournalM (List Node))
    (call : String → String → JournalM (Option Node)) : TagScript → JournalM (Option Node)
  | done node => return node
  | raise e => quietly (throw e)
  | ask r continuation => do
    let a ← r.journal env parse call
    (continuation a).journal env parse call
  | attempt r continuation => do
    let result ← JournalM.attempt (r.journal env parse call)
    (continuation result).journal env parse call

namespace Environment

variable (env : Environment) (roles : TagRoles)

/-- Call a tag, with a journal; tags can call each other `calls` deep. -/
def journalCall (parse : List String → JournalM (List Node)) :
    (calls : Nat) → String → String → JournalM (Option Node)
  | 0, _, _ => quietly (CompileM.fail .noProgress)
  | calls + 1, name, content => do
    let found := env.owner? (← active) name
    note (.call name content found)
    match found with
    | none => quietly (CompileM.fail (.unknownTag name []))
    | some (number, _) =>
      ((roles number name).script content).journal env parse (journalCall parse calls)

/-- Compile the expression of a variable tag as `compileVariable` does, with a journal. -/
def journalVariable (t : Token) : JournalM Expression := do
  note (.variable t (env.filterLookup (← active)))
  quietly (env.compileVariable t)

/-- Compile a block tag as `compileBlock` does, with a journal. A tag for which there is no room is not
dispatched. -/
def journalBlock (inner : Option (List String → JournalM (List Node))) (t : Token) (stop : List String) :
    JournalM (Option Node) := do
  let found := env.owner? (← active) t.tagName
  match found with
  | none =>
    note (.tag t found)
    quietly (throw ⟨.unknownTag t.tagName stop, some t.line⟩)
  | some (number, _) =>
    match inner with
    | none => quietly (throw ⟨.tooManyOpenTags maxOpenTags, some t.line⟩)
    | some parse =>
      note (.tag t found)
      JournalM.withOpenTag t (((roles number t.tagName).script t.tagContent).journal env parse
        (env.journalCall roles parse t.content.length))

/-- Compile tokens as `parseWithin` does, with a journal. -/
def journalWithin (inner : Option (List String → JournalM (List Node))) (stop : List String) :
    (rounds : Nat) → JournalM (List Node)
  | 0 => quietly (CompileM.fail .noProgress)
  | n + 1 => do
    if ← quietly CompileM.hasNext then
      let t ← quietly CompileM.next
      match t.kind with
      | .text => return .text t.content :: (← journalWithin inner stop n)
      | .variable =>
        if t.content.isEmpty then quietly (throw ⟨.emptyVariableTag, some t.line⟩)
        else
          let e ← env.journalVariable t
          return .output e :: (← journalWithin inner stop n)
      | .comment => journalWithin inner stop n
      | .block =>
        if t.tagName.isEmpty then quietly (throw ⟨.emptyBlockTag, some t.line⟩)
        else if stop.contains t.tagName then
          quietly (CompileM.prepend t)
          return []
        else
          let node ← env.journalBlock roles inner t stop
          return node.toList ++ (← journalWithin inner stop n)
    else if stop.isEmpty then return []
    else quietly (do throw (CompileM.unclosed stop (← get)))

/-- Compile as `parseAt` does, with a journal. -/
def journalAt : (room : Nat) → List String → JournalM (List Node)
  | 0, stop => do env.journalWithin roles none stop (← quietly CompileM.rounds)
  | room + 1, stop => do env.journalWithin roles (some (journalAt room)) stop (← quietly CompileM.rounds)

/-- The journal of compiling source with the given libraries active from the start. -/
def journal (base : List Nat) (source : String) : List Entry :=
  (env.journalAt roles maxOpenTags []).entries (Session.ofSource source base)

end Environment

/-! ## The journal adds nothing -/

/-- The session in which a computation ends, with an answer or with a failure. -/
def CompileM.sessionAfter {α : Type} (m : CompileM α) (s : Session) : Session :=
  match m s with
  | .ok _ s' => s'
  | .error _ s' => s'

/-- The computation `m'` does what `m` does, and its journal is right. -/
structure Journals (env : Environment) {α : Type} (m' : JournalM α) (m : CompileM α) (s : Session) : Prop where
  plain : m'.plain s = m s
  right : ∀ base loads, s.active = activeAfter base loads → Entry.Right env base loads (m'.entries s)
  active : ∀ base loads, s.active = activeAfter base loads →
    (m.sessionAfter s).active = activeAfter base (loads ++ Entry.allLoaded (m'.entries s))

section Steps

variable {env : Environment} {α β : Type} {m' n' : JournalM α} {m n : CompileM α} {s : Session}

namespace JournalM

theorem journal_bind (m : JournalM α) (f : α → JournalM β) (s : Session) :
    (m >>= f) s = match m s with
      | (entries, .ok a s') => (entries ++ (f a s').1, (f a s').2)
      | (entries, .error e s') => (entries, .error e s') := rfl

theorem entries_bind (m : JournalM α) (f : α → JournalM β) (s : Session) :
    (m >>= f).entries s = m.entries s ++ match m.plain s with
      | .ok a s' => (f a).entries s'
      | .error _ _ => [] := by
  rw [JournalM.entries, JournalM.entries, JournalM.plain, journal_bind]
  rcases m s with ⟨entries, _ | _⟩
  · rfl
  · exact (List.append_nil _).symm

theorem plain_bind (m : JournalM α) (f : α → JournalM β) (s : Session) :
    (m >>= f).plain s = match m.plain s with
      | .ok a s' => (f a).plain s'
      | .error e s' => .error e s' := by
  rw [JournalM.plain, JournalM.plain, journal_bind]
  rcases m s with ⟨entries, _ | _⟩ <;> rfl

/-- What asks nothing may be run first. -/
theorem quietly_bind_ok {a : α} {s' : Session} (h : m s = .ok a s') (f : α → JournalM β) :
    (quietly m >>= f) s = f a s' := by
  rw [journal_bind, quietly, h]
  rfl

theorem quietly_bind (m : CompileM α) (f : α → CompileM β) :
    (quietly m >>= fun a => quietly (f a)) = quietly (m >>= f) := by
  funext s
  cases hrun : m s with
  | ok a s' => rw [quietly_bind_ok hrun, quietly, quietly, run_bind_ok hrun]
  | error e s' => rw [journal_bind, quietly, quietly, run_bind_error hrun, hrun]

end JournalM

theorem Journals.bind {f' : α → JournalM β} {f : α → CompileM β} (h : Journals env m' m s)
    (hf : ∀ a s', m s = .ok a s' → Journals env (f' a) (f a) s') : Journals env (m' >>= f') (m >>= f) s := by
  have hplain := h.plain
  cases hrun : m s with
  | error e s' =>
    rw [hrun] at hplain
    have hentries : (m' >>= f').entries s = m'.entries s := by rw [entries_bind, hplain, List.append_nil]
    have hafter : (m >>= f).sessionAfter s = m.sessionAfter s := by
      rw [CompileM.sessionAfter, run_bind_error hrun, CompileM.sessionAfter, hrun]
    refine ⟨?_, fun base loads hs => hentries ▸ h.right base loads hs, fun base loads hs => ?_⟩
    · rw [plain_bind, hplain, run_bind_error hrun]
    · rw [hafter, hentries]
      exact h.active base loads hs
  | ok a s' =>
    rw [hrun] at hplain
    have hlater := hf a s' hrun
    have hentries : (m' >>= f').entries s = m'.entries s ++ (f' a).entries s' := by rw [entries_bind, hplain]
    have hafter : (m >>= f).sessionAfter s = (f a).sessionAfter s' := by
      rw [CompileM.sessionAfter, run_bind_ok hrun, CompileM.sessionAfter]
    -- the second part starts with the libraries that the loads of the first one leave active
    have hbetween {base loads : List Nat} (hs : s.active = activeAfter base loads) :
        s'.active = activeAfter base (loads ++ Entry.allLoaded (m'.entries s)) := by
      have hactive := h.active base loads hs
      rwa [CompileM.sessionAfter, hrun] at hactive
    refine ⟨?_, fun base loads hs => ?_, fun base loads hs => ?_⟩
    · rw [plain_bind, hplain, run_bind_ok hrun]
      exact hlater.plain
    · rw [hentries, Entry.right_append]
      exact ⟨h.right base loads hs, hlater.right base _ (hbetween hs)⟩
    · rw [hafter, hentries, Entry.allLoaded_append, ← List.append_assoc]
      exact hlater.active base _ (hbetween hs)

theorem active_bind (f : List Nat → JournalM β) (s : Session) : (JournalM.active >>= f) s = f s.active s := rfl

/-- What asks the libraries nothing and loads nothing has an empty journal. -/
theorem journals_quietly (h : (m.sessionAfter s).active = s.active) : Journals env (quietly m) m s where
  plain := rfl
  right _ _ _ := trivial
  active base loads hs := by
    rw [h, hs]
    exact congrArg (activeAfter base) (List.append_nil loads).symm

theorem journals_pure (a : α) : Journals env (pure a) (pure a) s := journals_quietly rfl

theorem journals_throw (e : CompileError) : Journals env (quietly (throw e)) (throw e : CompileM α) s :=
  journals_quietly rfl

/-- Only what is done from the session on matters. -/
theorem Journals.of_run (h : Journals env n' n s) (hrun' : m' s = n' s) (hrun : m s = n s) :
    Journals env m' m s := by
  have hentries : m'.entries s = n'.entries s := congrArg Prod.fst hrun'
  refine ⟨?_, fun base loads hs => hentries ▸ h.right base loads hs, fun base loads hs => ?_⟩
  · rw [JournalM.plain, hrun', hrun]
    exact h.plain
  · rw [hentries, CompileM.sessionAfter, hrun]
    exact h.active base loads hs

/-- Noting an inquiry before going on. -/
theorem Journals.note (inquiry : Inquiry) (h : Journals env m' m s)
    (hanswered : (⟨s.active, inquiry⟩ : Entry).IsAnswered env)
    (hloaded : (⟨s.active, inquiry⟩ : Entry).loaded = []) :
    Journals env (do JournalM.note inquiry; m') m s := by
  have hentries : (do JournalM.note inquiry; m' : JournalM α).entries s =
      ⟨s.active, inquiry⟩ :: m'.entries s := rfl
  refine ⟨h.plain, fun base loads hs => ?_, fun base loads hs => ?_⟩
  · rw [hentries, Entry.Right, hloaded, List.append_nil]
    exact ⟨hs, hanswered, h.right base loads hs⟩
  · rw [hentries, Entry.allLoaded, List.flatMap_cons, hloaded, List.nil_append]
    exact h.active base loads hs

theorem Journals.withOpenTag {t : Token} (h : Journals env m' m { s with openTags := t :: s.openTags }) :
    Journals env (JournalM.withOpenTag t m') (CompileM.withOpenTag t m) s := by
  have hplain := h.plain
  have hafter : ((CompileM.withOpenTag t m).sessionAfter s).active =
      (m.sessionAfter { s with openTags := t :: s.openTags }).active := by
    rw [CompileM.sessionAfter, CompileM.withOpenTag, CompileM.sessionAfter]
    cases m { s with openTags := t :: s.openTags } <;> rfl
  refine ⟨?_, h.right, fun base loads hs => ?_⟩
  · rw [JournalM.plain, JournalM.withOpenTag, CompileM.withOpenTag, CompileM.withOpenTag, hplain]
  · rw [hafter]
    exact h.active base loads hs

theorem Journals.attempt (h : Journals env m' m s) :
    Journals env (JournalM.attempt m') (CompileM.attempt m) s := by
  have hafter : ((CompileM.attempt m).sessionAfter s).active = (m.sessionAfter s).active := by
    rw [CompileM.sessionAfter, CompileM.attempt, CompileM.sessionAfter]
    cases m s <;> rfl
  refine ⟨?_, h.right, fun base loads hs => ?_⟩
  · rw [JournalM.plain, JournalM.attempt, CompileM.attempt, CompileM.attempt, h.plain]
  · rw [hafter]
    exact h.active base loads hs

end Steps

/-! ## What loads nothing -/

/-- A computation that leaves the list of active libraries as it is, whether it fails or not. -/
def CompileM.LoadsNothing {α : Type} (m : CompileM α) : Prop := ∀ s, (m.sessionAfter s).active = s.active

namespace CompileM.LoadsNothing

variable {α β : Type} {m : CompileM α}

theorem pure (a : α) : LoadsNothing (pure a) := fun _ => rfl

theorem throw (e : CompileError) : LoadsNothing (throw e : CompileM α) := fun _ => rfl

theorem onStream (m : StreamM α) : LoadsNothing (onStream m) := by
  intro s
  rw [sessionAfter, CompileM.onStream]
  cases m s.stream <;> rfl

theorem bind {f : α → CompileM β} (hm : LoadsNothing m) (hf : ∀ a, LoadsNothing (f a)) :
    LoadsNothing (m >>= f) := by
  intro s
  have hfirst := hm s
  rw [sessionAfter] at hfirst ⊢
  rw [run_bind]
  cases hrun : m s with
  | ok a s' =>
    rw [hrun] at hfirst
    exact (hf a s').trans hfirst
  | error e s' =>
    rw [hrun] at hfirst
    exact hfirst

theorem get : LoadsNothing (get : CompileM Session) := fun _ => rfl

theorem rounds : LoadsNothing rounds := get.bind fun _ => pure _

theorem currentToken : LoadsNothing currentToken := by
  refine get.bind fun s => ?_
  cases s.openTags with
  | nil => exact throw _
  | cons t outer => exact pure t

theorem skipWithin (name : String) (n : Nat) : LoadsNothing (skipWithin name n) := by
  induction n with
  | zero => exact throw _
  | succ n ih =>
    refine (onStream _).bind fun more => ?_
    cases more with
    | false => exact get.bind fun _ => throw _
    | true =>
      refine (onStream _).bind fun t => ?_
      split
      · exact pure _
      · exact ih

theorem skipPast (name : String) : LoadsNothing (skipPast name) := rounds.bind fun n => skipWithin name n

/-- Compiling the expression of a variable tag. -/
theorem compileVariable (env : Environment) (t : Token) : LoadsNothing (env.compileVariable t) := by
  refine get.bind fun s s' => ?_
  rw [sessionAfter, atLine, ofResult_run]
  cases Pipeline.compile (env.filterLookup s.active) t.content <;> rfl

end CompileM.LoadsNothing

/-! ## Compiling step by step -/

section Compiling

open CompileM

variable {env : Environment} {roles : TagRoles} {parse' : List String → JournalM (List Node)}
  {parse : List String → CompileM (List Node)} {calls : Nat}

/-- A load is noted with its answer, and is all that changes the list of active libraries. -/
theorem journals_load (name : String) (s : Session) :
    Journals env (do JournalM.note (.load name (env.find name)); quietly (env.load name)) (env.load name) s := by
  have hentries : (do JournalM.note (.load name (env.find name)); quietly (env.load name)).entries s =
      [⟨s.active, .load name (env.find name)⟩] := rfl
  refine ⟨rfl, fun base loads hs => hentries ▸ ⟨hs, rfl, trivial⟩, fun base loads hs => ?_⟩
  rw [hentries, Entry.allLoaded, List.flatMap_singleton, Entry.loaded, sessionAfter, Environment.load]
  cases env.find name with
  | error reason =>
    rw [List.append_nil]
    exact hs
  | ok number =>
    rw [activeAfter_concat, ← hs]
    rfl

/-- A request is answered as it is without a journal. -/
theorem request_journals (hparse : ∀ stop s, Journals env (parse' stop) (parse stop) s)
    (hcall : ∀ name content s, Journals env (env.journalCall roles parse' calls name content)
      ((env.handleWith parse calls).callTag name content) s) {α : Type} (r : Request α) (s : Session) :
    Journals env (r.journal env parse' (env.journalCall roles parse' calls))
      (r.run (env.handleWith parse calls)) s := by
  cases r with
  | next => exact journals_quietly (LoadsNothing.onStream _ s)
  | hasNext => exact journals_quietly (LoadsNothing.onStream _ s)
  | prepend t => exact journals_quietly (LoadsNothing.onStream _ s)
  | skipPast name => exact journals_quietly (LoadsNothing.skipPast name s)
  | rounds => exact journals_quietly (LoadsNothing.rounds s)
  | currentToken => exact journals_quietly (LoadsNothing.currentToken s)
  | parse stop =>
    rw [Request.run, handleWith_parse]
    exact hparse stop s
  | load name => exact (journals_load name s).of_run rfl (handleWith_load_run env parse calls s name)
  | filters =>
    have hnoted := (journals_pure (env.filterLookup s.active)).note (.header (env.filterLookup s.active)) rfl rfl
    exact hnoted.of_run rfl (handleWith_filters_run env parse calls s)
  | callTag name content => exact hcall name content s

theorem script_journals (hparse : ∀ stop s, Journals env (parse' stop) (parse stop) s)
    (hcall : ∀ name content s, Journals env (env.journalCall roles parse' calls name content)
      ((env.handleWith parse calls).callTag name content) s) (script : TagScript) (s : Session) :
    Journals env (script.journal env parse' (env.journalCall roles parse' calls))
      (script.run (env.handleWith parse calls)) s := by
  induction script generalizing s with
  | done node => exact journals_pure node
  | raise e => exact journals_throw e
  | ask r continuation ih =>
    exact (request_journals hparse hcall r s).bind fun a s' _ => ih a s'
  | attempt r continuation ih =>
    exact (request_journals hparse hcall r s).attempt.bind fun result s' _ => ih result s'

/-- A tag that another one calls is compiled as it is without a journal. -/
theorem call_journals (hroles : env.TagsSuit roles) (hparse : ∀ stop s, Journals env (parse' stop) (parse stop) s)
    (calls : Nat) (name content : String) (s : Session) :
    Journals env (env.journalCall roles parse' calls name content)
      ((env.handleWith parse calls).callTag name content) s := by
  induction calls generalizing name content s with
  | zero => exact journals_throw _
  | succ calls ih =>
    have hfind : (env.handleWith parse (calls + 1)).callTag name content s = (do
        let factory ← env.findTag name
        factory content (env.handleWith parse calls) : CompileM (Option Node)) s := rfl
    rw [run_bind, Environment.findTag, run_bind_get, Environment.tag?_eq_owner?] at hfind
    cases howner : env.owner? s.active name with
    | none =>
      have hfail : Journals env (quietly (fail (.unknownTag name [])))
          (fail (.unknownTag name []) : CompileM (Option Node)) s := journals_throw _
      have hnoted := hfail.note (.call name content none) howner.symm rfl
      refine hnoted.of_run ?_ ?_
      · rw [Environment.journalCall, active_bind, howner]
      · rw [hfind, howner]
        rfl
    | some found =>
      obtain ⟨number, factory⟩ := found
      have hnoted := Journals.note (.call name content (some (number, factory)))
        (script_journals hparse ih ((roles number name).script content) s) howner.symm rfl
      refine hnoted.of_run ?_ ?_
      · rw [Environment.journalCall, active_bind, howner]
      · rw [hfind, howner, ← hroles.factory_run (Environment.tagOf_of_owner? howner)]
        rfl

/-- A block tag. -/
theorem block_journals (hroles : env.TagsSuit roles) {inner' : Option (List String → JournalM (List Node))}
    {inner : Option (List String → CompileM (List Node))}
    (hinner : Option.Rel (fun parse' parse => ∀ stop s, Journals env (parse' stop) (parse stop) s) inner' inner)
    (t : Token) (stop : List String) (s : Session) :
    Journals env (env.journalBlock roles inner' t stop) (env.compileBlock inner t stop) s := by
  have hcompile : env.compileBlock inner t stop s = _ := run_bind_get _ _
  rw [Environment.tag?_eq_owner?] at hcompile
  cases howner : env.owner? s.active t.tagName with
  | none =>
    have hfail : Journals env (quietly (throw ⟨.unknownTag t.tagName stop, some t.line⟩))
        (throw ⟨.unknownTag t.tagName stop, some t.line⟩ : CompileM (Option Node)) s := journals_throw _
    refine (hfail.note (.tag t none) howner.symm rfl).of_run ?_ ?_
    · rw [Environment.journalBlock, active_bind, howner]
    · rw [hcompile, howner]
      rfl
  | some found =>
    obtain ⟨number, factory⟩ := found
    rw [howner] at hcompile
    cases hinner with
    | none =>
      refine Journals.of_run (journals_throw ⟨.tooManyOpenTags Environment.maxOpenTags, some t.line⟩) ?_ hcompile
      rw [Environment.journalBlock, active_bind, howner]
    | some hparse =>
      have hscript := script_journals hparse (call_journals hroles hparse t.content.length)
        ((roles number t.tagName).script t.tagContent) { s with openTags := t :: s.openTags }
      have hnoted := Journals.note (.tag t (some (number, factory))) hscript.withOpenTag howner.symm rfl
      refine Journals.of_run hnoted ?_ ?_
      · rw [Environment.journalBlock, active_bind, howner]
      · rw [hcompile, ← hroles.factory_run (Environment.tagOf_of_owner? howner)]
        rfl

theorem variable_journals (t : Token) (s : Session) :
    Journals env (env.journalVariable t) (env.compileVariable t) s :=
  have hnoted := (journals_quietly (LoadsNothing.compileVariable env t s)).note
    (.variable t (env.filterLookup s.active)) rfl rfl
  hnoted.of_run rfl rfl

/-- Token by token, compiling with a journal does what compiling does. -/
theorem within_journals (hroles : env.TagsSuit roles) {inner' : Option (List String → JournalM (List Node))}
    {inner : Option (List String → CompileM (List Node))}
    (hinner : Option.Rel (fun parse' parse => ∀ stop s, Journals env (parse' stop) (parse stop) s) inner' inner)
    (stop : List String) (n : Nat) (s : Session) :
    Journals env (env.journalWithin roles inner' stop n) (env.parseWithin inner stop n) s := by
  induction n generalizing s with
  | zero => exact journals_throw _
  | succ n ih =>
    refine (journals_quietly (LoadsNothing.onStream _ s)).bind fun more s₁ _ => ?_
    cases more with
    | false =>
      simp only [Bool.false_eq_true, if_false]
      split
      · exact journals_pure _
      · exact journals_quietly (LoadsNothing.get.bind (fun _ => .throw _) s₁)
    | true =>
      simp only [if_true]
      refine (journals_quietly (LoadsNothing.onStream _ s₁)).bind fun t s₂ _ => ?_
      cases t.kind with
      | text => exact (ih s₂).bind fun _ _ _ => journals_pure _
      | «variable» =>
        dsimp only
        split
        · exact journals_throw _
        · exact (variable_journals t s₂).bind fun e s₃ _ => (ih s₃).bind fun _ _ _ => journals_pure _
      | comment => exact ih s₂
      | block =>
        dsimp only
        split
        · exact journals_throw _
        · split
          · exact (journals_quietly (LoadsNothing.onStream _ s₂)).bind fun _ _ _ => journals_pure _
          · exact (block_journals hroles hinner t stop s₂).bind fun node s₃ _ =>
              (ih s₃).bind fun _ _ _ => journals_pure _

/-- Compiling with a journal is compiling, and the journal is right. -/
theorem at_journals (hroles : env.TagsSuit roles) (room : Nat) (stop : List String) (s : Session) :
    Journals env (env.journalAt roles room stop) (env.parseAt room stop) s := by
  induction room generalizing stop s with
  | zero =>
    exact (journals_quietly (LoadsNothing.rounds s)).bind fun n s' _ => within_journals hroles .none stop n s'
  | succ room ih =>
    exact (journals_quietly (LoadsNothing.rounds s)).bind fun n s' _ =>
      within_journals hroles (.some ih) stop n s'

end Compiling

end TextTemplate
