import TextTemplate.Proofs.Compile.Building
import TextTemplate.Proofs.Compile.Trace

/-!
# Failures at their lines

Where a failure should sit is read off the session in which it came up: a delimiter that is not closed at its
opening mark, a block that is not closed at its opening tag, and everything else at the token taken last. A
failure that a tag of a host raises itself has the line that the host gave it, and one that comes up while such
a tag is at work and has no line yet gets the line of the tag.

The standard tags place their failures so, once a header has been read; failures over the header itself have
no line yet, and come up before another token is taken.
-/

namespace TextTemplate

open CompileM

/-- Failures over something that is opened and not closed. -/
def CompileCause.isUnclosed : CompileCause → Bool
  | unclosedDelimiter .. | unclosedTag .. => true
  | _ => false

/-- The line of a failure that comes up in a session, where `fault` is the failure of the source. -/
def CompileError.SitsIn (fault : Option CompileError) (s : Session) (e : CompileError) : Prop :=
  match e.cause with
  | .unclosedDelimiter _ _ => fault = some e
  | .unclosedTag _ _ => ∃ t outer, s.openTags = t :: outer ∧ e.line = some (t.line : Int)
  | _ => e.line = some (s.stream.lastLine : Int)

/-- A failure that came up in a tag of the host itself: it sits at that tag, unless the host gave it another
line. -/
def CompileError.IsOfHost (host : HostTags) (s : Session) (e : CompileError) : Prop :=
  ∃ t outer, s.openTags = t :: outer ∧ host.Has s.active t.tagName ∧
    (e.line = some (t.line : Int) ∨ host.Raises s.active e)

/-- A failure that the author of a template can mend, with a line, which is the right one if the host did not
choose it. -/
structure CompileError.Placed (host : HostTags) (fault : Option CompileError) (s : Session)
    (e : CompileError) : Prop where
  user : e.cause.isUserError = true
  hasLine : e.line.isSome = true
  sits : e.SitsIn fault s ∨ e.IsOfHost host s

/-- The only failure that a source can end in is a delimiter that is not closed. -/
def IsScanFailure (fault : Option CompileError) : Prop :=
  ∀ e, fault = some e → ∃ kind line, e = Lexer.unclosed kind line

/-- The source of a session ends in the given failure, unless it has been reported. -/
def Session.EndsIn (fault : Option CompileError) (s : Session) : Prop :=
  s.stream.fault = none ∨ s.stream.fault = fault

variable {env : Environment} {host : HostTags} {fault : Option CompileError} {s s' : Session}
  {e : CompileError} {cause : CompileCause}

theorem Session.EndsIn.later (h : s.EndsIn fault) (hlater : s.Later s') : s'.EndsIn fault := by
  obtain hf | hf := hlater.fault
  · rw [Session.EndsIn, hf]
    exact h
  · exact .inl hf

namespace CompileError

theorem Placed.atLine (h : e.Placed host fault s) (line : Nat) : e.atLine line = e := by
  rcases e with ⟨cause, _ | l⟩
  · cases h.hasLine
  · exact settled_of_line cause l line

/-- A failure over a token at hand sits at its line if it was the last one taken. -/
theorem placed_of_lastLine {line : Nat} (huser : cause.isUserError = true) (hclosed : cause.isUnclosed = false)
    (hline : s.stream.lastLine = line) : Placed host fault s ⟨cause, some line⟩ := by
  refine ⟨huser, rfl, .inl ?_⟩
  subst hline
  cases cause <;> first | rfl | cases hclosed

/-- A failure that had no line sits at the token taken last once it is given that line. -/
theorem Unplaced.placed {line : Nat} (h : e.Unplaced) (hline : s.stream.lastLine = line) :
    (e.atLine line).Placed host fault s := by
  obtain ⟨cause, l⟩ := e
  obtain ⟨rfl, hover⟩ := h
  have huser : cause.isUserError = true := CompileCause.isUserError_of_isOverContent hover
  have hat : (CompileError.mk cause none).atLine line = ⟨cause, some line⟩ := by simp [CompileError.atLine, huser]
  rw [hat]
  refine placed_of_lastLine huser ?_ hline
  cases cause <;> first | rfl | cases hover

/-- The failure of the source sits where it says. -/
theorem placed_of_fault (hscan : IsScanFailure fault) (hs : s.EndsIn fault) (h : s.stream.fault = some e) :
    e.Placed host fault s' := by
  have hfault : fault = some e := by
    obtain hnone | hfault := hs
    · rw [hnone] at h
      cases h
    · exact hfault.symm.trans h
  obtain ⟨kind, line, rfl⟩ := hscan e hfault
  exact ⟨rfl, rfl, .inl hfault⟩

/-- A block that is not closed sits at its opening tag. -/
theorem placed_unclosed {stop : List String} (hopen : s.openTags ≠ []) :
    (unclosed stop s).Placed host fault s := by
  obtain ⟨t, outer, hopen⟩ := List.exists_cons_of_ne_nil hopen
  rw [unclosed, hopen]
  exact ⟨rfl, rfl, .inl ⟨t, outer, hopen, rfl⟩⟩

end CompileError

/-- A computation is traced and places its failures. -/
def Places (host : HostTags) (fault : Option CompileError) {α : Type} (m m' : CompileM α) (s : Session)
    (Q : α → Session → Prop) : Prop :=
  Traced m m' s (fun a s' => s.Later s' ∧ Q a s') (fun e s' => s.Later s' ∧ e.Placed host fault s')

/-- A computation is traced and places its failures, but for those over a header that it starts with. -/
def PlacesTag (host : HostTags) (fault : Option CompileError) {α : Type} (m m' : CompileM α) (s : Session) :
    Prop :=
  Traced m m' s (fun _ s' => s.Later s') fun e s' => s.Later s' ∧
    (e.Placed host fault s' ∨ e.Unplaced ∧ s'.openTags = s.openTags ∧ s'.stream.lastLine = s.stream.lastLine)

/-- Bodies are traced, and their failures are placed. -/
def PlacesBodies (host : HostTags) (fault : Option CompileError)
    (parse parse' : List String → CompileM (List Node)) : Prop :=
  ∀ stop s, s.EndsIn fault → (stop = [] ∨ s.openTags ≠ []) →
    Places host fault (parse stop) (parse' stop) s fun _ s' => StoppedAt stop s'.stream

section

variable {α β : Type} {m m' : CompileM α} {Q : α → Session → Prop}

/-- A computation that places its failures does so after another one. -/
theorem Places.after (h : Places host fault m m' s' Q) (hlater : s.Later s') :
    Traced m m' s' (fun a s'' => s.Later s'' ∧ Q a s'') (fun e s'' => s.Later s'' ∧ e.Placed host fault s'') :=
  Traced.imp h (fun _ _ _ h => ⟨hlater.trans h.1, h.2⟩) fun _ _ h => ⟨hlater.trans h.1, h.2⟩

/-- What goes on after a computation that places its failures. -/
theorem Places.bind {f f' : α → CompileM β} {Q' : β → Session → Prop} (h : Places host fault m m' s Q)
    (hf : ∀ a s₁, s.Later s₁ → s₁.openTags = s.openTags → Q a s₁ → Places host fault (f a) (f' a) s₁ Q') :
    Places host fault (m >>= f) (m' >>= f') s Q' := by
  refine Traced.bind (h.imp (fun a s₁ hopen ⟨hlater, ha⟩ => ?_) fun _ _ h => h)
  exact (hf a s₁ hlater hopen ha).after hlater

theorem places_of_ok {a : α} (hm : m s = .ok a s') (hm' : m' s = .ok a s') (hlater : s.Later s')
    (hopen : s'.openTags = s.openTags) (hQ : Q a s') : Places host fault m m' s Q :=
  traced_of_ok hm hm' hopen ⟨hlater, hQ⟩

/-- Every token that is left can be taken within the rounds. -/
theorem places_rounds : Places host fault rounds rounds s fun n s' => s' = s ∧ s'.stream.unread.length < n :=
  places_of_ok rfl rfl (.refl s) rfl ⟨rfl, Nat.lt_succ_self _⟩

theorem places_pure {a : α} (hQ : Q a s) : Places host fault (pure a) (pure a) s Q :=
  places_of_ok rfl rfl (.refl s) rfl hQ

theorem Places.map (h : Places host fault m m' s Q) (f : α → β) :
    Places host fault (do return f (← m)) (do return f (← m')) s fun _ _ => True :=
  h.bind fun _ _ _ _ _ => places_pure trivial

/-- A header comes first: its failures have no line yet, and nothing has been taken. -/
theorem placesTag_header {r : Except CompileError α} {f g : α → CompileM β} {n n' : CompileM β}
    {Q : β → Session → Prop} (hr : FailsUnplaced r) (hn : n s = (do f (← ofResult r)) s)
    (hn' : n' s = (do g (← ofResult r)) s) (hf : ∀ a, r = .ok a → Places host fault (f a) (g a) s Q) :
    PlacesTag host fault n n' s := by
  refine Traced.of_run ?_ hn hn'
  cases r with
  | ok a => exact (hf a rfl).imp (fun _ _ _ h => h.1) fun e s' h => ⟨h.1, .inl h.2⟩
  | error e => exact traced_of_error rfl rfl ⟨.refl s, .inr ⟨hr e rfl, rfl, rfl⟩⟩

/-- A result that is read for a token gets the line of the token if it fails. -/
theorem places_atLine {r : Except CompileError α} (hr : FailsUnplaced r) (hm : m s = ofResult r s)
    (hm' : m' s = ofResult r s) {line : Nat} (hline : s.stream.lastLine = line) :
    Places host fault (atLine line m) (atLine line m') s fun _ s' => s' = s := by
  cases r with
  | ok a => exact places_of_ok (by rw [atLine, hm]; rfl) (by rw [atLine, hm']; rfl) (.refl s) rfl rfl
  | error e =>
    exact traced_of_error (by rw [atLine, hm]; rfl) (by rw [atLine, hm']; rfl)
      ⟨.refl s, (hr e rfl).placed hline⟩

theorem Places.placesTag (h : Places host fault m m' s Q) : PlacesTag host fault m m' s :=
  h.imp (fun _ _ _ h => h.1) fun _ _ h => ⟨h.1, .inl h.2⟩

end

/-! ## Bodies -/

section Bodies

variable {parse parse' : List String → CompileM (List Node)} {calls : Nat}

/-- Where a body has stopped at a tag, that tag is taken next. -/
theorem places_next {stop : List String} (hstopped : StoppedAt stop s.stream) (hstop : stop ≠ []) :
    Places host fault next next s fun t s' => s'.stream.lastLine = t.line := by
  obtain ⟨t, rest, hunread, -⟩ := hstopped.exists_token hstop
  obtain ⟨s', hrun, htook, hactive⟩ := next_run hunread
  exact places_of_ok hrun hrun (htook.later hactive) htook.openTags_eq (next_lastLine hrun)

theorem places_bodyUpTo (hparse : PlacesBodies host fault parse parse') (hs : s.EndsIn fault)
    (hopen : s.openTags ≠ []) (endTag : String) :
    Places host fault ((env.handleWith parse calls).bodyUpTo endTag)
      ((env.handleWith parse' calls).bodyUpTo endTag) s fun _ _ => True := by
  simp only [Handle.bodyUpTo, handleWith_parse]
  refine (hparse [endTag] s hs (.inr hopen)).bind fun nodes s₁ _ _ hstopped => ?_
  obtain ⟨t, rest, hunread, -⟩ := hstopped.exists_token (List.cons_ne_nil _ _)
  obtain ⟨s₂, hrun, htook, hactive⟩ := deleteNext_run hunread
  have hdelete : Places host fault deleteNext deleteNext s₁ fun _ _ => True :=
    places_of_ok hrun hrun (htook.later hactive) htook.openTags_eq trivial
  exact hdelete.bind fun _ _ _ _ _ => places_pure trivial

theorem places_secondBody (hparse : PlacesBodies host fault parse parse') (hs : s.EndsIn fault)
    (hopen : s.openTags ≠ []) {separator endTag : String} (hstopped : StoppedAt [separator, endTag] s.stream) :
    Places host fault (StandardTag.secondBody (env.handleWith parse calls) separator endTag)
      (StandardTag.secondBody (env.handleWith parse' calls) separator endTag) s fun _ _ => True := by
  refine (places_next hstopped (List.cons_ne_nil _ _)).bind fun t s₁ hlater hopen₁ _ => ?_
  split
  · exact places_bodyUpTo hparse (hs.later hlater) (hopen₁ ▸ hopen) endTag
  · exact places_pure trivial

/-- A body and a second one after a separator. -/
theorem places_bodies (hparse : PlacesBodies host fault parse parse') (hs : s.EndsIn fault)
    (hopen : s.openTags ≠ []) (separator endTag : String) (node : List Node → List Node → Node) :
    Places host fault
      (do
        let first ← (env.handleWith parse calls).parse [separator, endTag]
        let second ← StandardTag.secondBody (env.handleWith parse calls) separator endTag
        return some (node first second))
      (do
        let first ← (env.handleWith parse' calls).parse [separator, endTag]
        let second ← StandardTag.secondBody (env.handleWith parse' calls) separator endTag
        return some (node first second)) s fun _ _ => True := by
  simp only [handleWith_parse]
  refine (hparse _ s hs (.inr hopen)).bind fun first s₁ hlater hopen₁ hstopped => ?_
  refine (places_secondBody hparse (hs.later hlater) (hopen₁ ▸ hopen) hstopped).bind fun second _ _ _ _ => ?_
  exact places_pure trivial

end Bodies

/-! ## Tags that keep their inside from the compiler -/

section Kept

variable {α : Type} {Q : α → Session → Prop} (hscan : IsScanFailure fault) (hs : s.EndsIn fault)
include hscan hs

/-- A read that fails at the end places its failure. -/
theorem places_read {f f' : Token → CompileM α} {g g' : CompileM α}
    (hnext : ∀ t s', s.Took [t] s' → s.Later s' → s'.stream.lastLine = t.line →
      Places host fault (f t) (f' t) s' Q)
    (hend : Places host fault g g' s Q) :
    Places host fault (do if ← hasNext then f (← next) else g) (do if ← hasNext then f' (← next) else g') s Q := by
  refine traced_read (fun t s' htook hactive hline => ?_) (fun e s' hfault hlater _ => ?_) (fun _ _ => hend)
  · exact (hnext t s' htook (htook.later hactive) hline).after (htook.later hactive)
  · exact ⟨hlater, CompileError.placed_of_fault hscan hs hfault⟩

theorem places_skipWithin (hopen : s.openTags ≠ []) (name : String) {n : Nat} (hn : s.stream.unread.length < n) :
    Places host fault (skipWithin name n) (skipWithin name n) s fun _ _ => True := by
  induction n generalizing s with
  | zero => omega
  | succ n ih =>
    refine places_read hscan hs (fun t s' htook hlater _ => ?_) ?_
    · split
      · exact places_pure trivial
      · have hlength : s'.stream.unread.length < n := by simpa [htook.unread_eq] using hn
        exact ih (hs.later hlater) (htook.openTags_eq ▸ hopen) hlength
    · exact traced_of_error rfl rfl ⟨.refl s, CompileError.placed_unclosed hopen⟩

theorem places_skipPast (hopen : s.openTags ≠ []) (name : String) :
    Places host fault (skipPast name) (skipPast name) s fun _ _ => True := by
  exact places_rounds.bind fun n s₁ hlater hopen₁ hn =>
    places_skipWithin hscan (hs.later hlater) (hopen₁ ▸ hopen) name hn.2

theorem places_verbatimWithin (hopen : s.openTags ≠ []) {n : Nat} (hn : s.stream.unread.length < n) :
    Places host fault (StandardTag.verbatimWithin n) (StandardTag.verbatimWithin n) s fun _ _ => True := by
  induction n generalizing s with
  | zero => omega
  | succ n ih =>
    refine places_read hscan hs (fun t s' htook hlater _ => ?_) ?_
    · split
      · exact places_pure trivial
      · have hlength : s'.stream.unread.length < n := by simpa [htook.unread_eq] using hn
        exact (ih (hs.later hlater) (htook.openTags_eq ▸ hopen) hlength).map _
    · obtain ⟨t, outer, hopen⟩ := List.exists_cons_of_ne_nil hopen
      refine traced_of_error (run_bind_ok (currentToken_run hopen)) (run_bind_ok (currentToken_run hopen)) ?_
      exact ⟨.refl s, rfl, rfl, .inl ⟨t, outer, hopen, rfl⟩⟩

end Kept

/-! ## Branches -/

section Branches

variable {parse parse' : List String → CompileM (List Node)} {calls : Nat} {t : Token}
  (hparse : PlacesBodies host fault parse parse')
include hparse

/-- The branches that start with `elif`; the tag that ends the last one was taken last. -/
theorem places_elifBranches (hs : s.EndsIn fault) (hopen : s.openTags ≠ []) {n : Nat}
    (hn : s.stream.unread.length < n) (hline : s.stream.lastLine = t.line) :
    Places host fault (StandardTag.elifBranches (env.handleWith parse calls) n t)
      (StandardTag.elifBranches (env.handleWith parse' calls) n t) s
      fun found s' => s'.stream.lastLine = found.2.line := by
  induction n generalizing s t with
  | zero => omega
  | succ n ih =>
    rw [StandardTag.elifBranches, StandardTag.elifBranches]
    split
    · have hcondition : Places host fault
          (atLine t.line (StandardTag.condition (env.handleWith parse calls) "elif" t.tagContent))
          (atLine t.line (StandardTag.condition (env.handleWith parse' calls) "elif" t.tagContent)) s
          fun _ s' => s' = s :=
        places_atLine (HeaderReader.condition_failsUnplaced (env.filterLookup_failsUnplaced _) "elif" t.tagContent)
          (condition_run env parse calls s _ _) (condition_run env parse' calls s _ _) hline
      refine hcondition.bind fun c s₁ _ _ hsame => ?_
      subst hsame
      simp only [handleWith_parse]
      refine (hparse _ s₁ hs (.inr hopen)).bind fun body s₂ hlater₂ hopen₂ hstopped => ?_
      obtain ⟨m, rest, hunread, -⟩ := hstopped.exists_token (by simp [StandardTag.branchEnds])
      obtain ⟨s₃, hrun, htook, hactive⟩ := next_run hunread
      have hnext : Places host fault next next s₂ fun m s' =>
          s'.stream.lastLine = m.line ∧ s'.stream.unread.length < n := by
        refine places_of_ok hrun hrun (htook.later hactive) htook.openTags_eq ⟨next_lastLine hrun, ?_⟩
        have := hlater₂.shorter
        simp only [htook.unread_eq, List.length_append, List.length_singleton] at this
        omega
      refine hnext.bind fun m s₄ hlater₄ hopen₄ hm => ?_
      refine (ih (hs.later (hlater₂.trans hlater₄)) ?_ hm.2 hm.1).bind fun found s₅ _ _ hlast => ?_
      · rw [hopen₄, hopen₂]
        exact hopen
      · exact places_pure hlast
    · exact places_pure hline

theorem places_elseBranch (hs : s.EndsIn fault) (hopen : s.openTags ≠ []) (hline : s.stream.lastLine = t.line) :
    Places host fault (StandardTag.elseBranch (env.handleWith parse calls) t)
      (StandardTag.elseBranch (env.handleWith parse' calls) t) s fun _ _ => True := by
  rw [StandardTag.elseBranch, StandardTag.elseBranch]
  split
  · split
    · exact (places_bodyUpTo hparse hs hopen "endif").map _
    · exact traced_of_error rfl rfl ⟨.refl s, CompileError.placed_of_lastLine rfl rfl hline⟩
  · exact places_pure trivial

end Branches

/-! ## The standard tags -/

section Tags

variable {parse parse' : List String → CompileM (List Node)} {calls : Nat} (content : String)

/-- Loading a library keeps the others and changes nothing else, unless there is none of the name. -/
theorem load_cases (env : Environment) (name : String) (s : Session) :
    (∃ answer active, env.load name s = .ok answer { s with active := active } ∧ s.active ⊆ active) ∨
      ∃ reason, env.load name s = .error (.ofCause (.unknownLibrary name reason)) s := by
  cases hfind : env.find name with
  | error reason =>
    refine .inr ⟨reason, ?_⟩
    rw [Environment.load, hfind]
    rfl
  | ok number =>
    refine .inl ⟨((env.libraries[number]?).map (·.name)).getD name, s.active.filter (· != number) ++ [number],
      ?_, fun n hn => ?_⟩
    · rw [Environment.load, hfind]
      rfl
    · by_cases h : n = number <;> simp [h, hn]

/-- Libraries are loaded one after the other, up to the first that is not found. -/
theorem load_names_placesTag (names : List String) :
    PlacesTag host fault (names.forM fun name => do let _ ← env.load name)
      (names.forM fun name => do let _ ← env.load name) s := by
  induction names generalizing s with
  | nil => exact traced_of_ok rfl rfl rfl (.refl s)
  | cons name rest ih =>
    obtain ⟨answer, active, hload, hsub⟩ | ⟨reason, hload⟩ := load_cases env name s
    · have hrun : (do let _ ← env.load name : CompileM Unit) s = .ok () { s with active := active } := by
        rw [run_bind_ok hload]
        rfl
      have hlater : s.Later { s with active := active } := ⟨Nat.le_refl _, .inl rfl, hsub⟩
      refine Traced.bind (traced_of_ok hrun hrun rfl (ih.imp (fun _ _ _ h => hlater.trans h) fun e s' h => ?_))
      exact ⟨hlater.trans h.1, h.2⟩
    · have hrun : ((name :: rest).forM fun name => do let _ ← env.load name) s =
          .error (.ofCause (.unknownLibrary name reason)) s := by
        rw [List.forM, run_bind, run_bind_error hload]
      exact traced_of_error hrun hrun ⟨.refl s, .inr ⟨CompileError.unplaced_ofCause rfl, rfl, rfl⟩⟩

theorem load_placesTag : PlacesTag host fault (StandardTag.load content (env.handleWith parse calls))
    (StandardTag.load content (env.handleWith parse' calls)) s := by
  have hload (parse : List String → CompileM (List Node)) : (env.handleWith parse calls).load = env.load := by
    cases calls <;> rfl
  rw [StandardTag.load, StandardTag.load, hload, hload]
  split
  · exact traced_of_error rfl rfl ⟨.refl s, .inr ⟨CompileError.unplaced_ofCause rfl, rfl, rfl⟩⟩
  · refine Traced.bind ((load_names_placesTag _).imp (fun _ s' _ hlater => ?_) fun _ _ h => h)
    exact traced_of_ok rfl rfl rfl hlater

theorem firstOf_placesTag : PlacesTag host fault (StandardTag.firstOf content (env.handleWith parse calls))
    (StandardTag.firstOf content (env.handleWith parse' calls)) s := by
  refine placesTag_header (f := fun found => pure (some (.firstTrue found)))
    (g := fun found => pure (some (.firstTrue found))) (Q := fun _ _ => True)
    (HeaderReader.candidates_failsUnplaced (env.filterLookup_failsUnplaced s.active) content) ?_ ?_
    fun _ _ => places_pure trivial
  all_goals
    unfold StandardTag.firstOf HeaderReader.candidates
    by_cases hbits : (Bits.ofString content).isEmpty
    · simp only [hbits, if_true]
      rfl
    · simp only [hbits, Bool.false_eq_true, if_false]
      rw [run_bind, run_bind, expressions_run]

theorem symbol_placesTag (h h' : Handle) :
    PlacesTag host fault (StandardTag.symbol content h) (StandardTag.symbol content h') s := by
  refine placesTag_header (f := fun found => pure (some (.text found)))
    (g := fun found => pure (some (.text found))) (Q := fun _ _ => True)
    (HeaderReader.symbol_failsUnplaced content) ?_ ?_ fun _ _ => places_pure trivial
  all_goals
    unfold StandardTag.symbol HeaderReader.symbol
    cases Header.symbol content <;> rfl

variable (hs : s.EndsIn fault) (hopen : s.openTags ≠ [])
include hs hopen

section

variable (hscan : IsScanFailure fault)
include hscan

theorem comment_placesTag (h h' : Handle) :
    PlacesTag host fault (StandardTag.comment content h) (StandardTag.comment content h') s :=
  ((places_skipPast hscan hs hopen "endcomment").map _).placesTag

theorem verbatim_placesTag (h h' : Handle) :
    PlacesTag host fault (StandardTag.verbatim content h) (StandardTag.verbatim content h') s := by
  refine Places.placesTag (Q := fun _ _ => True) (places_rounds.bind fun n s₁ hlater hopen₁ hn => ?_)
  exact (places_verbatimWithin hscan (hs.later hlater) (hopen₁ ▸ hopen) hn.2).map _

end

variable (hparse : PlacesBodies host fault parse parse')
include hparse

theorem spaceless_placesTag : PlacesTag host fault (StandardTag.spaceless content (env.handleWith parse calls))
    (StandardTag.spaceless content (env.handleWith parse' calls)) s :=
  ((places_bodyUpTo hparse hs hopen "endspaceless").map _).placesTag

theorem filtered_placesTag : PlacesTag host fault (StandardTag.filtered content (env.handleWith parse calls))
    (StandardTag.filtered content (env.handleWith parse' calls)) s := by
  refine placesTag_header
    (f := fun found => do return some (.filtered found (← (env.handleWith parse calls).bodyUpTo "endfilter")))
    (g := fun found => do return some (.filtered found (← (env.handleWith parse' calls).bodyUpTo "endfilter")))
    (Pipeline.compileChain_failsUnplaced (env.filterLookup_failsUnplaced s.active) content) ?_ ?_ fun found _ =>
      (places_bodyUpTo hparse hs hopen "endfilter").map _
  all_goals rw [StandardTag.filtered, run_bind_ok (handleWith_filters_run env _ calls s)]

theorem binding_placesTag : PlacesTag host fault (StandardTag.binding content (env.handleWith parse calls))
    (StandardTag.binding content (env.handleWith parse' calls)) s :=
  placesTag_header (HeaderReader.bindings_failsUnplaced (env.filterLookup_failsUnplaced s.active) content)
    (binding_run content) (binding_run content) fun _ _ =>
      (places_bodyUpTo hparse hs hopen "endwith").map _

theorem equality_placesTag (tag : String) (negated : Bool) :
    PlacesTag host fault (StandardTag.equality tag negated content (env.handleWith parse calls))
      (StandardTag.equality tag negated content (env.handleWith parse' calls)) s :=
  placesTag_header (HeaderReader.operands_failsUnplaced (env.filterLookup_failsUnplaced s.active) tag content)
    (equality_run tag negated content) (equality_run tag negated content) fun found _ =>
      places_bodies hparse hs hopen "else" ("end" ++ tag) (.equality negated found.1 found.2)

theorem loop_placesTag : PlacesTag host fault (StandardTag.loop content (env.handleWith parse calls))
    (StandardTag.loop content (env.handleWith parse' calls)) s := by
  refine placesTag_header
    (f := fun found => do
      let body ← (env.handleWith parse calls).parse ["empty", "endfor"]
      let empty ← StandardTag.secondBody (env.handleWith parse calls) "empty" "endfor"
      return some (.loop found.1.names found.2 found.1.reversed body empty))
    (g := fun found => do
      let body ← (env.handleWith parse' calls).parse ["empty", "endfor"]
      let empty ← StandardTag.secondBody (env.handleWith parse' calls) "empty" "endfor"
      return some (.loop found.1.names found.2 found.1.reversed body empty))
    (HeaderReader.loop_failsUnplaced (env.filterLookup_failsUnplaced s.active) content) ?_ ?_ fun found _ =>
      places_bodies hparse hs hopen "empty" "endfor" (.loop found.1.names found.2 found.1.reversed)
  all_goals
    unfold StandardTag.loop HeaderReader.loop
    cases Header.loop content with
    | error fault => rfl
    | ok header =>
      dsimp only
      rw [run_bind, expression_run]
      cases Pipeline.compile (env.filterLookup s.active) header.sequence <;> rfl

theorem conditional_placesTag :
    PlacesTag host fault (StandardTag.conditional content (env.handleWith parse calls))
      (StandardTag.conditional content (env.handleWith parse' calls)) s := by
  refine placesTag_header (Q := fun _ _ => True)
    (f := fun c => do
      let body ← (env.handleWith parse calls).parse StandardTag.branchEnds
      let elifs ← StandardTag.elifBranches (env.handleWith parse calls) (← rounds) (← next)
      let otherwise ← StandardTag.elseBranch (env.handleWith parse calls) elifs.2
      return some (.choice ((c, body) :: elifs.1) otherwise))
    (g := fun c => do
      let body ← (env.handleWith parse' calls).parse StandardTag.branchEnds
      let elifs ← StandardTag.elifBranches (env.handleWith parse' calls) (← rounds) (← next)
      let otherwise ← StandardTag.elseBranch (env.handleWith parse' calls) elifs.2
      return some (.choice ((c, body) :: elifs.1) otherwise))
    (HeaderReader.condition_failsUnplaced (env.filterLookup_failsUnplaced s.active) "if" content) ?_ ?_
    fun c _ => ?_
  · rw [StandardTag.conditional, run_bind, run_bind, condition_run]
  · rw [StandardTag.conditional, run_bind, run_bind, condition_run]
  · simp only [handleWith_parse]
    refine (hparse _ s hs (.inr hopen)).bind fun body s₁ hlater₁ hopen₁ hstopped => ?_
    refine places_rounds.bind fun n s₂ _ _ hrounds => ?_
    obtain ⟨rfl, hn⟩ := hrounds
    refine (places_next hstopped (by simp [StandardTag.branchEnds])).bind fun m s₃ hlater₃ hopen₃ hline => ?_
    have hs₃ : s₃.EndsIn fault := hs.later (hlater₁.trans hlater₃)
    have hopen' : s₃.openTags ≠ [] := hopen₃ ▸ hopen₁ ▸ hopen
    refine (places_elifBranches hparse hs₃ hopen' (hlater₃.shorter.trans_lt hn) hline).bind
      fun found s₄ hlater₄ hopen₄ hlast => ?_
    exact (places_elseBranch hparse (hs₃.later hlater₄) (hopen₄ ▸ hopen') hlast).map _

end Tags

/-- Every standard tag places its failures, but for those over its header. -/
theorem directive_placesTag {parse parse' : List String → CompileM (List Node)} (hscan : IsScanFailure fault)
    (hparse : PlacesBodies host fault parse parse') (hs : s.EndsIn fault) (hopen : s.openTags ≠ []) (calls : Nat)
    (content : String) (k : Directive) : PlacesTag host fault (k.factory content (env.handleWith parse calls))
      (k.factory content (env.handleWith parse' calls)) s := by
  cases k with
  | load => exact load_placesTag content
  | comment =>
    exact comment_placesTag content hs hopen hscan (env.handleWith parse calls) (env.handleWith parse' calls)
  | verbatim =>
    exact verbatim_placesTag content hs hopen hscan (env.handleWith parse calls) (env.handleWith parse' calls)
  | conditional => exact conditional_placesTag content hs hopen hparse
  | loop => exact loop_placesTag content hs hopen hparse
  | binding => exact binding_placesTag content hs hopen hparse
  | equality => exact equality_placesTag content hs hopen hparse "ifequal" false
  | inequality => exact equality_placesTag content hs hopen hparse "ifnotequal" true
  | firstOf => exact firstOf_placesTag content
  | symbol => exact symbol_placesTag content (env.handleWith parse calls) (env.handleWith parse' calls)
  | spaceless => exact spaceless_placesTag content hs hopen hparse
  | filtered => exact filtered_placesTag content hs hopen hparse

end TextTemplate
