import TextTemplate.Proofs.Compile.Derivation

/-!
# What the standard tags do

Given that bodies are compiled as the grammar has them, each standard tag takes the tokens of one block, builds
its node, and leaves the session otherwise as it was. Where it fails, compiling token by token fails from its
opening tag on, with the same failure. The tags with one body, with two, and those that keep their inside from
the compiler are treated alike.
-/

namespace TextTemplate

open Grammar CompileM Progress

variable {env : Environment}

/-- The blocks on a stack are the open tags of a session that has room for so many more. -/
structure Fits (s : Session) (room : Nat) (blocks : List OpenBlock) : Prop where
  openers : blocks.map (·.opener) = s.openTags
  room : blocks.length + room = Environment.maxOpenTags
  settled : ∀ e, s.stream.fault = some e → e.Settled

theorem Fits.took {s s' : Session} {u : List Token} {room : Nat} {blocks : List OpenBlock}
    (h : Fits s room blocks) (htook : s.Took u s') : Fits s' room blocks where
  openers := h.openers.trans htook.openTags_eq.symm
  room := h.room
  settled := by rw [htook.fault_eq]; exact h.settled

/-- Compiling token by token fails with a settled failure. -/
def Fails (env : Environment) (p : Progress) (s : Session) (e : CompileError) : Prop :=
  e.Settled ∧ p.outcome env s.stream.unread s.stream.fault = .error e

/-- Failing later on is failing. -/
theorem Fails.of_run {p p' : Progress} {s s' : Session} {u : List Token} {e : CompileError}
    (h : Fails env p' s' e) (htook : s.Took u s') (hrun : run env u p = .ok p') : Fails env p s e := by
  refine ⟨h.1, ?_⟩
  rw [htook.unread_eq, outcome_append_ok hrun, ← htook.fault_eq]
  exact h.2

/-- Compiling token by token fails in every body of a block that waits for the tags `stop`. -/
def FailsIn (env : Environment) (room : Nat) (stop : List String) (s : Session) (e : CompileError) : Prop :=
  ∀ d blocks, Fits s room blocks → Compiles blocks → stopSet blocks = stop →
    Fails env ⟨s.active, d, blocks⟩ s e

/-- A stream stands at a tag of the stop set, or has ended if there is nothing to stop at. -/
def StoppedAt (stop : List String) (s : TokenStream) : Prop :=
  if stop = [] then s.unread = [] ∧ s.fault = none
  else ∃ t rest, s.unread = t :: rest ∧ ∃ name ∈ stop, t.isBlock name

/-- A computation compiles bodies as the grammar has them. -/
def ParsesBodies (env : Environment) (room : Nat) (parse : List String → CompileM (List Node)) : Prop :=
  ∀ stop s, Ends (parse stop) s
    (fun nodes s' => ∃ u, s.Took u s' ∧ Body env room s.active u nodes s'.active ∧ StoppedAt stop s'.stream)
    (fun e s' => s'.openTags = s.openTags ∧ FailsIn env room stop s e)

/-- From the opening tag of a directive on, compiling token by token fails. -/
def FailsFrom (env : Environment) (room : Nat) (k : Directive) (t : Token) (s : Session) (e : CompileError) :
    Prop :=
  ∀ d blocks, (∀ stage, Fits s room (⟨t, stage, d⟩ :: blocks)) →
    (do (← enter env ⟨s.active, d, blocks⟩ k t).outcome env s.stream.unread s.stream.fault) =
      .error (e.atLine t.line)

/-- A computation compiles the block that a tag has opened. -/
def BuildsBlock (env : Environment) (room : Nat) (k : Directive) (t : Token) (m : CompileM (Option Node))
    (s : Session) : Prop :=
  Ends m s (fun node s' => ∃ u, s.Took u s' ∧ Block env (Body env room) s.active (t :: u) node s'.active)
    (fun e s' => s'.openTags = s.openTags ∧ FailsFrom env room k t s e)

section

variable {room : Nat} {k : Directive} {t : Token} {s : Session}

/-- A header that cannot be read fails at the line of its tag. -/
theorem failsFrom_header {e : CompileError} (h : k.opening env s.active t.tagContent = .error e) :
    FailsFrom env room k t s e := by
  intro d blocks _
  simp only [enter, h]
  rfl

/-- A failure after the header is a failure from the opening tag on. -/
theorem failsFrom_stage {e : CompileError} {stage : Stage}
    (h : k.opening env s.active t.tagContent = .ok (.block stage))
    (hfail : ∀ d blocks, Fits s room (⟨t, stage, d⟩ :: blocks) →
      Fails env ⟨s.active, [], ⟨t, stage, d⟩ :: blocks⟩ s e) : FailsFrom env room k t s e := by
  intro d blocks hfits
  obtain ⟨hsettled, houtcome⟩ := hfail d blocks (hfits stage)
  simp only [enter, h]
  rw [hsettled]
  exact houtcome

/-- A failure in the first body of a block. -/
theorem failsFrom_body {e : CompileError} {stage : Stage}
    (h : k.opening env s.active t.tagContent = .ok (.block stage)) (hc : stage.isOpaque = false)
    (hfail : FailsIn env room stage.awaited s e) : FailsFrom env room k t s e :=
  failsFrom_stage h fun d blocks hfits => hfail [] _ hfits (by simpa [Compiles] using hc) rfl

/-- A block tag of the stop set comes next. -/
theorem stoppedAt_of_unread {stop : List String} {stream : TokenStream} {t : Token} {rest : List Token}
    (hunread : stream.unread = t :: rest) (hkind : t.kind = .block) (hstop : stop.contains t.tagName = true) :
    StoppedAt stop stream := by
  have hmem : t.tagName ∈ stop := by simpa using hstop
  rw [StoppedAt, if_neg (List.ne_nil_of_mem hmem)]
  exact ⟨t, rest, hunread, t.tagName, hmem, by simp [Token.isBlock, hkind]⟩

/-- A body that ends at one of several tags. -/
theorem StoppedAt.exists_token {stop : List String} {stream : TokenStream} (h : StoppedAt stop stream)
    (hstop : stop ≠ []) : ∃ t rest, stream.unread = t :: rest ∧ ∃ name ∈ stop, t.isBlock name := by
  rwa [StoppedAt, if_neg hstop] at h

end

/-! ## Bodies -/

section

variable {room calls : Nat} {parse : List String → CompileM (List Node)} {s : Session}

/-- A body and the end tag after it. -/
theorem ends_bodyUpTo (hparse : ParsesBodies env room parse) (endTag : String) :
    Ends ((env.handleWith parse calls).bodyUpTo endTag) s
      (fun nodes s' => ∃ u e, s.Took (u ++ [e]) s' ∧ Body env room s.active u nodes s'.active ∧
        e.isBlock endTag)
      (fun e s' => s'.openTags = s.openTags ∧ FailsIn env room [endTag] s e) := by
  rw [Handle.bodyUpTo, handleWith_parse]
  apply Ends.bind
  apply (hparse [endTag] s).imp
  · rintro nodes s₁ ⟨u, htook, hbody, hstopped⟩
    obtain ⟨e, rest, hunread, name, hname, he⟩ := hstopped.exists_token (by simp)
    obtain rfl : name = endTag := by simpa using hname
    obtain ⟨s₂, hrun, htook', hactive⟩ := deleteNext_run hunread
    refine ends_bind_ok hrun ⟨u, e, htook.trans htook', ?_, he⟩
    rw [hactive]
    exact hbody
  · exact fun _ _ h => h

/-- The end of a block of two bodies, read from where the first one stopped. -/
theorem ends_secondBody (hparse : ParsesBodies env room parse) {separator endTag : String}
    (hne : separator ≠ endTag) (hstopped : StoppedAt [separator, endTag] s.stream) :
    Ends (StandardTag.secondBody (env.handleWith parse calls) separator endTag) s
      (fun nodes s' => ∃ w other, s.Took w s' ∧ nodes = other.getD [] ∧
        Grammar.Ending (Body env room) (·.isBlock separator) endTag s.active w other s'.active)
      (fun e s' => s'.openTags = s.openTags ∧ ∃ m s₁, s.Took [m] s₁ ∧ s₁.active = s.active ∧
        m.isBlock separator ∧ FailsIn env room [endTag] s₁ e) := by
  obtain ⟨m, rest, hunread, name, hname, hm⟩ := hstopped.exists_token (by simp)
  obtain ⟨s₁, hrun, htook, hactive⟩ := next_run hunread
  have htag : m.tagName = name := (Token.isBlock_iff.mp hm).2
  rw [StandardTag.secondBody]
  apply ends_bind_ok hrun
  rcases List.mem_pair.mp hname with rfl | rfl
  · rw [if_pos (by simpa using htag)]
    apply (ends_bodyUpTo hparse endTag).imp
    · rintro nodes s₂ ⟨u, e, htook', hbody, he⟩
      rw [hactive] at hbody
      exact ⟨m :: u ++ [e], some nodes, htook.cons htook', rfl, .withBody hm hbody he⟩
    · rintro e s₂ ⟨hopen, hfail⟩
      exact ⟨hopen.trans htook.openTags_eq, m, s₁, htook, hactive, hm, hfail⟩
  · rw [if_neg (by simpa [htag] using hne.symm)]
    refine ends_of_ok rfl ⟨[m], none, htook, rfl, ?_⟩
    rw [hactive]
    exact .without hm

variable {k : Directive} {t : Token}

/-- A block with one body. -/
theorem buildsBlock_body (hparse : ParsesBodies env room parse) {stage : Stage} {endTag : String}
    (hopening : k.opening env s.active t.tagContent = .ok (.block stage)) (hc : stage.isOpaque = false)
    (hstage : stage.awaited = [endTag]) (node : List Node → Node)
    (hblock : ∀ {u nodes a' e}, Body env room s.active u nodes a' → e.isBlock endTag →
      Block env (Body env room) s.active (t :: u ++ [e]) (some (node nodes)) a') :
    BuildsBlock env room k t
      (do return some (node (← (env.handleWith parse calls).bodyUpTo endTag))) s := by
  apply Ends.bind
  apply (ends_bodyUpTo hparse endTag).imp
  · rintro nodes s' ⟨u, e, htook, hbody, he⟩
    exact ends_of_ok rfl ⟨u ++ [e], htook, hblock hbody he⟩
  · rintro e s' ⟨hopen, hfail⟩
    exact ⟨hopen, failsFrom_body hopening hc (hstage ▸ hfail)⟩

/-- A block with a second body after a separator. -/
theorem buildsBlock_bodies (hparse : ParsesBodies env room parse) {stage : Stage} {separator endTag : String}
    (hne : separator ≠ endTag) (next : List Node → Stage)
    (hopening : k.opening env s.active t.tagContent = .ok (.block stage)) (hc : stage.isOpaque = false)
    (hc' : ∀ nodes, (next nodes).isOpaque = false) (hstage : stage.awaited = [separator, endTag])
    (hnext : ∀ nodes, (next nodes).awaited = [endTag])
    (hresume : ∀ lookup nodes m, m.isBlock separator → stage.resume lookup nodes m = .ok (.again (next nodes)))
    (node : List Node → List Node → Node)
    (hblock : ∀ {u nodes a₁ w other a'}, Body env room s.active u nodes a₁ →
      Grammar.Ending (Body env room) (·.isBlock separator) endTag a₁ w other a' →
      Block env (Body env room) s.active (t :: u ++ w) (some (node nodes (other.getD []))) a') :
    BuildsBlock env room k t (do
      let first ← (env.handleWith parse calls).parse [separator, endTag]
      let second ← StandardTag.secondBody (env.handleWith parse calls) separator endTag
      return some (node first second)) s := by
  rw [handleWith_parse]
  apply Ends.bind
  apply (hparse _ s).imp
  · rintro nodes s₁ ⟨u, htook, hbody, hstopped⟩
    apply Ends.bind
    apply (ends_secondBody hparse hne hstopped).imp
    · rintro _ s₂ ⟨w, other, htook', rfl, hending⟩
      exact ends_of_ok rfl ⟨u ++ w, htook.trans htook', hblock hbody hending⟩
    · rintro e s₂ ⟨hopen, m, s₃, htook', hactive, hm, hfail⟩
      refine ⟨hopen.trans htook.openTags_eq, failsFrom_stage hopening fun d blocks hfits => ?_⟩
      have hrun := body_runs env room hbody [] (⟨t, stage, d⟩ :: blocks) hfits.room.le
        (by simpa [Compiles] using hc)
      have hstep := step_awaited env s₁.active nodes ⟨t, stage, d⟩ blocks hm (by simp [hstage])
      rw [hresume _ _ _ hm] at hstep
      have hfits' : Fits s₃ room (⟨t, next nodes, d⟩ :: blocks) :=
        ⟨(hfits.took (htook.trans htook')).openers, hfits.room, (hfits.took (htook.trans htook')).settled⟩
      have hlater := hfail [] _ hfits' (by simpa [Compiles] using hc' nodes) (hnext nodes)
      rw [hactive] at hlater
      exact (hlater.of_run htook' (run_cons_ok hstep)).of_run htook hrun
  · rintro e s' ⟨hopen, hfail⟩
    exact ⟨hopen, failsFrom_body hopening hc (hstage ▸ hfail)⟩

end

end TextTemplate
