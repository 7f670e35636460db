import TextTemplate.Proofs.Compile.Factory
import TextTemplate.Proofs.Compile.HostTag
import TextTemplate.Proofs.Compile.Unplaced

/-!
# Compiling with a trace

When compiling fails, the open block tags are closed one after the other on the way out, and the session in
which it failed is lost. Here source is compiled in the same way, but a tag that fails stays open, so that the
session at the end shows which tags were open when the failure came up. The two ways of compiling are related
step by step: they give the same answers and failures, and their sessions differ in nothing but the tags left
open.
-/

namespace TextTemplate

namespace CompileM

variable {α : Type}

/-- Compile a block tag, and leave it open if that fails. -/
def keepingOpenTag (t : Token) (m : CompileM α) : CompileM α := fun s =>
  match m { s with openTags := t :: s.openTags } with
  | .ok a s' => .ok a { s' with openTags := s.openTags }
  | .error e s' => .error (e.atLine t.line) s'

end CompileM

namespace Environment

variable (env : Environment)

/-- Compile a block tag as `compileBlock` does, with a trace. -/
def traceBlock (inner : Option (List String → CompileM (List Node))) (t : Token) (stop : List String) :
    CompileM (Option Node) := do
  match env.tag? (← get).active t.tagName with
  | none => throw ⟨.unknownTag t.tagName stop, some t.line⟩
  | some factory =>
    match inner with
    | none => throw ⟨.tooManyOpenTags maxOpenTags, some t.line⟩
    | some parse =>
      CompileM.keepingOpenTag t (factory t.tagContent (env.handleWith parse t.content.length))

/-- Compile tokens as `parseWithin` does, with a trace. -/
def traceWithin (inner : Option (List String → CompileM (List Node))) (stop : List String) :
    (rounds : Nat) → CompileM (List Node)
  | 0 => CompileM.fail .noProgress
  | n + 1 => do
    if ← CompileM.hasNext then
      let t ← CompileM.next
      match t.kind with
      | .text => return .text t.content :: (← traceWithin inner stop n)
      | .variable =>
        if t.content.isEmpty then throw ⟨.emptyVariableTag, some t.line⟩
        else
          let e ← env.compileVariable t
          return .output e :: (← traceWithin inner stop n)
      | .comment => traceWithin inner stop n
      | .block =>
        if t.tagName.isEmpty then throw ⟨.emptyBlockTag, some t.line⟩
        else if stop.contains t.tagName then
          CompileM.prepend t
          return []
        else
          let node ← env.traceBlock inner t stop
          return node.toList ++ (← traceWithin inner stop n)
    else if stop.isEmpty then return []
    else throw (CompileM.unclosed stop (← get))

/-- Compile as `parseAt` does, with a trace. -/
def traceAt : (room : Nat) → List String → CompileM (List Node)
  | 0, stop => do env.traceWithin none stop (← CompileM.rounds)
  | room + 1, stop => do env.traceWithin (some (traceAt room)) stop (← CompileM.rounds)

/-- Compile source with a trace: where it fails, the tags that were open then still are. -/
def trace (base : List Nat) (source : String) : EStateM.Result CompileError Session (List Node) :=
  (env.traceAt maxOpenTags []).run (Session.ofSource source base)

end Environment

namespace Session

/-- The session `s'` comes after `s`: no tokens were added, no library was dropped, and the failure of the
source can only have been reported. -/
structure Later (s s' : Session) : Prop where
  shorter : s'.stream.unread.length ≤ s.stream.unread.length
  fault : s'.stream.fault = s.stream.fault ∨ s'.stream.fault = none
  active : s.active ⊆ s'.active

variable {s s' s'' : Session} {u : List Token}

theorem Later.refl (s : Session) : s.Later s := ⟨Nat.le_refl _, .inl rfl, List.Subset.refl _⟩

theorem Later.trans (h : s.Later s') (h' : s'.Later s'') : s.Later s'' where
  shorter := h'.shorter.trans h.shorter
  fault := by
    obtain hf | hf := h'.fault
    · exact hf ▸ h.fault
    · exact .inr hf
  active := List.Subset.trans h.active h'.active

/-- Which tags are open makes no difference. -/
theorem Later.withOpenTags (h : s.Later s') (tags tags' : List Token) :
    Session.Later { s with openTags := tags } { s' with openTags := tags' } := ⟨h.shorter, h.fault, h.active⟩

theorem Took.later (h : s.Took u s') (hactive : s'.active = s.active) : s.Later s' where
  shorter := by simp [h.unread_eq]
  fault := .inl h.fault_eq
  active := by simp [hactive]

end Session

namespace CompileM

variable {α β : Type} {s : Session} {m m' : CompileM α} {Q Q' : α → Session → Prop}
  {E E' : CompileError → Session → Prop}

/-- The computation `m` and its traced form `m'` both end with an answer in one session, which is in `Q` and
has the tags open that were open before; or both end with a failure, `m'` in a session that is in `E`, and `m`
in one that has the tags open that were open before and is the same otherwise. -/
def Traced (m m' : CompileM α) (s : Session) (Q : α → Session → Prop) (E : CompileError → Session → Prop) :
    Prop :=
  (∃ a s', m s = .ok a s' ∧ m' s = .ok a s' ∧ s'.openTags = s.openTags ∧ Q a s') ∨
    ∃ e s', m s = .error e { s' with openTags := s.openTags } ∧ m' s = .error e s' ∧ E e s'

theorem Traced.imp (h : Traced m m' s Q E) (hQ : ∀ a s', s'.openTags = s.openTags → Q a s' → Q' a s')
    (hE : ∀ e s', E e s' → E' e s') : Traced m m' s Q' E' := by
  obtain ⟨a, s', hm, hm', hopen, ha⟩ | ⟨e, s', hm, hm', he⟩ := h
  · exact .inl ⟨a, s', hm, hm', hopen, hQ a s' hopen ha⟩
  · exact .inr ⟨e, s', hm, hm', hE e s' he⟩

/-- A sequence is traced if its second part is wherever the first one leads. -/
theorem Traced.bind {f f' : α → CompileM β} {Q : β → Session → Prop}
    (h : Traced m m' s (fun a s' => Traced (f a) (f' a) s' Q E) E) : Traced (m >>= f) (m' >>= f') s Q E := by
  obtain ⟨a, s₁, hm, hm', hopen, hf⟩ | ⟨e, s', hm, hm', he⟩ := h
  · rw [Traced, run_bind_ok hm, run_bind_ok hm', ← hopen]
    exact hf
  · exact .inr ⟨e, s', run_bind_error hm, run_bind_error hm', he⟩

theorem traced_of_ok {a : α} {s' : Session} (hm : m s = .ok a s') (hm' : m' s = .ok a s')
    (hopen : s'.openTags = s.openTags) (hQ : Q a s') : Traced m m' s Q E :=
  .inl ⟨a, s', hm, hm', hopen, hQ⟩

theorem traced_of_error {e : CompileError} (hm : m s = .error e s) (hm' : m' s = .error e s) (hE : E e s) :
    Traced m m' s Q E :=
  .inr ⟨e, s, hm, hm', hE⟩

/-- Both computations can be replaced by ones that run alike. -/
theorem Traced.of_run {n n' : CompileM α} (h : Traced n n' s Q E) (hm : m s = n s) (hm' : m' s = n' s) :
    Traced m m' s Q E := by
  rwa [Traced, hm, hm']

/-- A caught failure leaves the two sessions alike. -/
theorem Traced.attempt (h : Traced m m' s Q E) :
    Traced (CompileM.attempt m) (CompileM.attempt m') s
      (fun r s' => match r with
        | .ok a => Q a s'
        | .error e => ∃ tags, E e { s' with openTags := tags }) E' := by
  obtain ⟨a, s', hm, hm', hopen, ha⟩ | ⟨e, s', hm, hm', he⟩ := h
  · refine traced_of_ok (a := .ok a) ?_ ?_ hopen ha
    · rw [CompileM.attempt, hm]
    · rw [CompileM.attempt, hm']
  · have hrun : CompileM.attempt m s = .ok (.error e) { s' with openTags := s.openTags } := by
      rw [CompileM.attempt, hm]
    have hrun' : CompileM.attempt m' s = .ok (.error e) { s' with openTags := s.openTags } := by
      rw [CompileM.attempt, hm']
    exact traced_of_ok hrun hrun' rfl ⟨s'.openTags, he⟩

/-- In the traced form the tag that fails stays open. -/
theorem Traced.withOpenTag {t : Token}
    (h : Traced m m' { s with openTags := t :: s.openTags } (fun a s' => Q a { s' with openTags := s.openTags })
      (fun e s' => E (e.atLine t.line) s')) : Traced (withOpenTag t m) (keepingOpenTag t m') s Q E := by
  obtain ⟨a, s', hm, hm', -, ha⟩ | ⟨e, s', hm, hm', he⟩ := h
  · refine .inl ⟨a, { s' with openTags := s.openTags }, ?_, ?_, rfl, ha⟩
    · rw [CompileM.withOpenTag, hm]
    · rw [keepingOpenTag, hm']
  · refine .inr ⟨e.atLine t.line, s', ?_, ?_, he⟩
    · rw [CompileM.withOpenTag, hm]
    · rw [keepingOpenTag, hm']

/-! ## Reads -/

/-- Reporting the failure of the source. -/
theorem later_faultless (s : Session) : s.Later { s with stream := { s.stream with fault := none } } :=
  ⟨Nat.le_refl _, .inr rfl, List.Subset.refl _⟩

/-- Looking whether there is a next token loses none, and meets the failure of the source at the end. -/
theorem hasNext_cases (s : Session) :
    (∃ s' t rest, hasNext s = .ok true s' ∧ s.Took [] s' ∧ s'.active = s.active ∧
      s'.stream.unread = t :: rest) ∨
    (hasNext s = .ok false s ∧ s.stream.unread = [] ∧ s.stream.fault = none) ∨
    ∃ e, hasNext s = .error e { s with stream := { s.stream with fault := none } } ∧
      s.stream.unread = [] ∧ s.stream.fault = some e := by
  cases hs : s.stream.unread with
  | nil =>
    have hhas := TokenStream.hasNext_of_unread_nil hs
    cases hf : s.stream.fault with
    | none =>
      rw [hf] at hhas
      exact .inr (.inl ⟨by rw [hasNext, onStream, hhas], rfl, rfl⟩)
    | some e =>
      rw [hf] at hhas
      exact .inr (.inr ⟨e, by rw [hasNext, onStream, hhas], rfl, rfl⟩)
  | cons t rest =>
    obtain ⟨stream, hhas, htook⟩ := TokenStream.hasNext_of_unread_cons hs
    refine .inl ⟨{ s with stream := stream }, t, rest, by rw [hasNext, onStream, hhas], ⟨htook, rfl⟩, rfl, ?_⟩
    simpa [hs] using htook.unread_eq.symm

/-- The line of the token taken last is remembered. -/
theorem next_lastLine {t : Token} {s' : Session} (h : next s = .ok t s') : s'.stream.lastLine = t.line := by
  rcases s with ⟨⟨_ | ⟨p, pending⟩, _ | ⟨q, source⟩, _ | e, last⟩, active, openTags⟩ <;> cases h <;> rfl

/-- Taking a token fails at the end only, over the source or over the token that is missing. -/
theorem next_cases (s : Session) :
    (∃ t s', next s = .ok t s' ∧ s.Took [t] s' ∧ s'.active = s.active ∧ s'.stream.lastLine = t.line) ∨
    ∃ e s', next s = .error e s' ∧ s.Later s' ∧ s'.openTags = s.openTags ∧
      (s.stream.fault = some e ∨ e = ⟨.unexpectedEnd, s'.stream.endLine⟩) := by
  cases hs : s.stream.unread with
  | nil =>
    rcases s with ⟨⟨_ | ⟨p, pending⟩, _ | ⟨q, source⟩, _ | e, last⟩, active, openTags⟩
    · exact .inr ⟨_, _, rfl, .refl _, rfl, .inr rfl⟩
    · exact .inr ⟨e, _, rfl, later_faultless _, rfl, .inl rfl⟩
    all_goals simp [TokenStream.unread] at hs
  | cons t rest =>
    obtain ⟨s', hrun, htook, hactive⟩ := next_run hs
    exact .inl ⟨t, s', hrun, htook, hactive, next_lastLine hrun⟩

/-- A read goes on with the next token; at the end it meets the failure of the source, or finds that there is
no token left. -/
theorem traced_read {f f' : Token → CompileM α} {g g' : CompileM α}
    (hnext : ∀ t s', s.Took [t] s' → s'.active = s.active → s'.stream.lastLine = t.line →
      Traced (f t) (f' t) s' Q E)
    (hfault : ∀ e s', s.stream.fault = some e → s.Later s' → s'.openTags = s.openTags → E e s')
    (hend : s.stream.unread = [] → s.stream.fault = none → Traced g g' s Q E) :
    Traced (do if ← hasNext then f (← next) else g) (do if ← hasNext then f' (← next) else g') s Q E := by
  apply Traced.bind
  obtain ⟨s₁, t, rest, hhas, htook, hactive, hunread⟩ | ⟨hhas, hnil, hnone⟩ | ⟨e, hhas, -, hsome⟩ := hasNext_cases s
  · obtain ⟨s₂, hrun, htook', hactive'⟩ := next_run hunread
    refine traced_of_ok hhas hhas htook.openTags_eq ?_
    have hlater := hnext t s₂ (htook.trans htook') (hactive'.trans hactive) (next_lastLine hrun)
    exact Traced.bind (traced_of_ok hrun hrun htook'.openTags_eq hlater)
  · exact traced_of_ok hhas hhas rfl (hend hnil hnone)
  · exact .inr ⟨e, _, hhas, hhas, hfault e _ hsome (later_faultless s) rfl⟩

end CompileM

end TextTemplate
