import TextTemplate.Proofs.Compile.Directive

/-!
# Tags of a host

A tag sees nothing of the compiler but its handle and the tokens. What a tag of a host does is written as a
script of the requests it makes, each chosen after the answers to those before it; a failure of the compiler
is passed on or caught. A script plays fair if it raises nothing but errors that the author of a template can
mend, puts back no more tokens than it has taken, and calls only tags of a lower rank, so that compiling comes
to an end.
-/

namespace TextTemplate

namespace CompileM

variable {α : Type}

/-- Catch a failure. The block tags that were open before are open after it. -/
def attempt (m : CompileM α) : CompileM (Except CompileError α) := fun s =>
  match m s with
  | .ok a s' => .ok (.ok a) s'
  | .error e s' => .ok (.error e) { s' with openTags := s.openTags }

end CompileM

/-- What a tag can ask of the compiler, with the type of the answer. -/
inductive Request : Type → Type where
  | next : Request Token
  | hasNext : Request Bool
  | prepend (t : Token) : Request Unit
  | skipPast (name : String) : Request Unit
  /-- A bound for loops that take a token in every round but the last. -/
  | rounds : Request Nat
  | currentToken : Request Token
  | parse (stop : List String) : Request (List Node)
  | load (name : String) : Request String
  | filters : Request FilterLookup
  | callTag (name content : String) : Request (Option Node)

namespace Request

variable {α : Type}

def run (h : Handle) : Request α → CompileM α
  | next => CompileM.next
  | hasNext => CompileM.hasNext
  | prepend t => CompileM.prepend t
  | skipPast name => CompileM.skipPast name
  | rounds => CompileM.rounds
  | currentToken => CompileM.currentToken
  | parse stop => h.parse stop
  | load name => h.load name
  | filters => h.filters
  | callTag name content => h.callTag name content

/-- Whether a tag of rank `size` that has `held` tokens in hand may ask for it, where `rank` tells how deep
calls go on from a tag of a name and content. -/
def IsFair (rank : String → String → Nat) (size held : Nat) : Request α → Prop
  | prepend _ => 0 < held
  | callTag name content => rank name content < size
  | _ => True

/-- How many tokens are in hand after the request. -/
def heldAfter (held : Nat) : Request α → Nat
  | next => held + 1
  | prepend _ => held - 1
  | _ => held

end Request

/-- What a tag does. -/
inductive TagScript where
  | done (node : Option Node)
  | raise (e : CompileError)
  /-- Go on with the answer; a failure is passed on. -/
  | ask {α : Type} (r : Request α) (continuation : α → TagScript)
  /-- Go on with the answer or the failure. -/
  | attempt {α : Type} (r : Request α) (continuation : Except CompileError α → TagScript)

namespace TagScript

def run (h : Handle) : TagScript → CompileM (Option Node)
  | done node => return node
  | raise e => throw e
  | ask r continuation => do
    let a ← r.run h
    (continuation a).run h
  | attempt r continuation => do
    let result ← CompileM.attempt (r.run h)
    (continuation result).run h

/-- The script plays fair from where it has `held` tokens in hand. -/
def IsFair (rank : String → String → Nat) (size : Nat) : (held : Nat) → TagScript → Prop
  | _, done _ => True
  | _, raise e => e.cause.isUserError = true
  | held, ask r continuation =>
    r.IsFair rank size held ∧ ∀ a, (continuation a).IsFair rank size (r.heldAfter held)
  | held, attempt r continuation =>
    r.IsFair rank size held ∧ (∀ a, (continuation (.ok a)).IsFair rank size (r.heldAfter held)) ∧
      ∀ e, e.cause.isUserError = true → (continuation (.error e)).IsFair rank size held

/-- The script can come to raise the failure itself. -/
def Raises (e : CompileError) : TagScript → Prop
  | done _ => False
  | raise e' => e' = e
  | ask _ continuation => ∃ a, (continuation a).Raises e
  | attempt _ continuation => ∃ result, (continuation result).Raises e

end TagScript

/-- One of the standard tags, under whatever name. -/
def IsStandardTag (factory : TagFactory) : Prop := ∃ d : Directive, factory = d.factory

theorem isStandardTag_of_lookup {name : String} {factory : TagFactory}
    (h : StandardTag.all.lookup name = some factory) : IsStandardTag factory := by
  rw [Directive.lookup_standard, Option.map_eq_some_iff] at h
  obtain ⟨d, -, rfl⟩ := h
  exact ⟨d, rfl⟩

/-- What the tags of a host do. -/
structure HostTags where
  /-- The script of the tag that the library of a number has under a name, if that is not a standard tag. -/
  script? : (number : Nat) → (name : String) → Option (String → TagScript)
  /-- How deep calls go on from a tag; the compiler lets a tag of the source call others as deep as it is
  long. -/
  rank : (name content : String) → Nat
  rank_le : ∀ name content, rank name content ≤ name.length + content.length

namespace HostTags

/-- An active library has a tag of the host under the name. -/
def Has (host : HostTags) (active : List Nat) (name : String) : Prop :=
  ∃ number ∈ active, (host.script? number name).isSome = true

/-- A tag of the host in an active library can raise the failure itself. -/
def Raises (host : HostTags) (active : List Nat) (e : CompileError) : Prop :=
  ∃ number ∈ active, ∃ name script content, host.script? number name = some script ∧ (script content).Raises e

variable {host : HostTags} {active active' : List Nat} {e : CompileError}

theorem Raises.mono (h : host.Raises active e) (hsub : active ⊆ active') : host.Raises active' e := by
  obtain ⟨number, hnumber, hscript⟩ := h
  exact ⟨number, hsub hnumber, hscript⟩

/-- A host without tags of its own. -/
def empty : HostTags := ⟨fun _ _ => none, fun _ _ => 0, fun _ _ => Nat.zero_le _⟩

end HostTags

namespace Environment

/-- The tags of all libraries are standard ones, or do what the scripts of the host say, which play fair. -/
def TagsFollow (env : Environment) (host : HostTags) : Prop :=
  ∀ number l, env.libraries[number]? = some l → ∀ name factory, l.tag? name = some factory →
    match host.script? number name with
    | some script => (∀ content, (script content).IsFair host.rank (host.rank name content) 0) ∧
        ∀ content h, factory content h = (script content).run h
    | none => IsStandardTag factory

variable {env : Environment} {host : HostTags} {active : List Nat} {name : String} {factory : TagFactory}

/-- A tag that is found is a standard one, or it follows a script of the host. -/
theorem tag?_cases (henv : env.TagsFollow host) (h : env.tag? active name = some factory) :
    IsStandardTag factory ∨ ∃ number ∈ active, ∃ script, host.script? number name = some script ∧
      (∀ content, (script content).IsFair host.rank (host.rank name content) 0) ∧
      ∀ content h, factory content h = (script content).run h := by
  obtain ⟨l, hl, hfind⟩ := List.exists_of_findSome?_eq_some h
  obtain ⟨number, hnumber, hl⟩ := List.mem_filterMap.mp hl
  have hfollows := henv number l hl name factory hfind
  cases hscript : host.script? number name with
  | none =>
    rw [hscript] at hfollows
    exact .inl hfollows
  | some script =>
    rw [hscript] at hfollows
    refine .inr ⟨number, ?_, script, hscript, hfollows⟩
    cases hp : env.precedence <;> simpa [hp] using hnumber

theorem StandardTagsOnly.tagsFollow (henv : env.StandardTagsOnly) : env.TagsFollow .empty := by
  intro number l hl name factory hfind
  exact isStandardTag_of_lookup (henv l (List.mem_of_getElem? hl) name factory hfind)

end Environment

end TextTemplate
