import TextTemplate.Proofs.Compile.Factory

/-!
# Each of the standard tags

The tags with a shape of their own come first: those that keep what is inside them from the compiler, and `if`
with its chain of `elif` branches. Then each directive is shown to build its block.
-/

namespace TextTemplate

open Grammar CompileM Progress

variable {env : Environment} {room calls : Nat} {parse : List String → CompileM (List Node)}

/-! ## Blocks that keep their inside from the compiler -/

section Kept

variable {name : String} {s : Session}

/-- The end tag was not found: the failure is that of the source, or `missing` if the source has none. -/
def NeverEnds (name : String) (missing : CompileError) (s : Session) (e : CompileError) : Prop :=
  (∀ u ∈ s.stream.unread, u.isBlock name = false) ∧ s.stream.fault.getD missing = e

theorem NeverEnds.cons {s' : Session} {u : Token} {missing e : CompileError} (h : NeverEnds name missing s' e)
    (htook : s.Took [u] s') (hu : u.isBlock name = false) : NeverEnds name missing s e := by
  refine ⟨?_, htook.fault_eq ▸ h.2⟩
  rw [htook.unread_eq]
  exact List.forall_mem_cons.mpr ⟨hu, h.1⟩

/-- What is skipped goes up to the first end tag. -/
theorem ends_skipWithin {missing : CompileError} {n : Nat}
    (hmissing : ∀ s' : Session, s'.openTags = s.openTags → unclosed [name] s' = missing)
    (hn : s.stream.unread.length < n) : Ends (skipWithin name n) s
      (fun _ s' => s'.active = s.active ∧ ∃ inside e, s.Took (inside ++ [e]) s' ∧
        (∀ u ∈ inside, u.isBlock name = false) ∧ e.isBlock name)
      (fun e s' => s'.openTags = s.openTags ∧ NeverEnds name missing s e) := by
  induction n generalizing s with
  | zero => omega
  | succ n ih =>
    rw [skipWithin]
    refine ends_read (fun t s₁ htook hactive => ?_) (fun e s' hnil hfault hopen => ?_) (fun hnil hfault => ?_)
    · cases ht : t.isBlock name with
      | true => exact ends_of_ok (a := ()) rfl ⟨hactive, [], t, htook, by simp, ht⟩
      | false =>
        have hlength : s₁.stream.unread.length < n := by
          rw [htook.unread_eq, List.length_append, List.length_singleton] at hn
          omega
        simp only [Bool.false_eq_true, if_false]
        apply (ih (fun s' hs' => hmissing s' (hs'.trans htook.openTags_eq)) hlength).imp
        · rintro _ s' ⟨hactive', inside, e, htook', hinside, he⟩
          refine ⟨hactive'.trans hactive, t :: inside, e, htook.cons htook', ?_, he⟩
          exact List.forall_mem_cons.mpr ⟨ht, hinside⟩
        · exact fun e s' ⟨hopen, hnever⟩ => ⟨hopen.trans htook.openTags_eq, hnever.cons htook ht⟩
    · exact ⟨hopen, by simp [hnil], by simp [hfault]⟩
    · refine ends_of_error rfl ⟨rfl, by simp [hnil], ?_⟩
      rw [hfault, hmissing s rfl]
      rfl

/-- What `verbatim` reads goes up to the first end tag. -/
theorem ends_verbatimWithin {t : Token} {outer : List Token} {n : Nat} (hopen : s.openTags = t :: outer)
    (hn : s.stream.unread.length < n) : Ends (StandardTag.verbatimWithin n) s
      (fun found s' => s'.active = s.active ∧ ∃ inside e, s.Took (inside ++ [e]) s' ∧
        found = inside.map Token.raw ∧ (∀ u ∈ inside, u.isBlock "endverbatim" = false) ∧
        e.isBlock "endverbatim")
      (fun e s' => s'.openTags = s.openTags ∧ NeverEnds "endverbatim"
        ⟨.unclosedTag (some "verbatim") ["endverbatim"], some t.line⟩ s e) := by
  induction n generalizing s with
  | zero => omega
  | succ n ih =>
    rw [StandardTag.verbatimWithin]
    refine ends_read (fun u s₁ htook hactive => ?_) (fun e s' hnil hfault hopen => ?_) (fun hnil hfault => ?_)
    · cases hu : u.isBlock "endverbatim" with
      | true => exact ends_of_ok rfl ⟨hactive, [], u, htook, rfl, by simp, hu⟩
      | false =>
        have hlength : s₁.stream.unread.length < n := by
          rw [htook.unread_eq, List.length_append, List.length_singleton] at hn
          omega
        simp only [Bool.false_eq_true, if_false]
        apply Ends.bind
        apply (ih (htook.openTags_eq.trans hopen) hlength).imp
        · rintro _ s' ⟨hactive', inside, e, htook', rfl, hinside, he⟩
          refine ends_of_ok rfl ⟨hactive'.trans hactive, u :: inside, e, htook.cons htook', rfl, ?_, he⟩
          exact List.forall_mem_cons.mpr ⟨hu, hinside⟩
        · exact fun e s' ⟨hopen, hnever⟩ => ⟨hopen.trans htook.openTags_eq, hnever.cons htook hu⟩
    · exact ⟨hopen, by simp [hnil], by simp [hfault]⟩
    · refine ends_of_error (run_bind_ok (currentToken_run hopen)) ⟨rfl, by simp [hnil], ?_⟩
      rw [hfault]
      rfl

/-- A block that keeps its inside from the compiler and has no end tag fails from its opening tag on. -/
theorem failsFrom_kept {k : Directive} {t : Token} {stage : Stage} {e : CompileError}
    (hopening : k.opening env s.active t.tagContent = .ok (.block stage)) (hkept : stage.isOpaque = true)
    (hstage : stage.awaited = [name])
    (hnever : NeverEnds name ⟨.unclosedTag (some t.tagName) [name], some t.line⟩ s e) :
    FailsFrom env room k t s e := by
  refine failsFrom_stage hopening fun d blocks hfits => ?_
  have hrun : run env s.stream.unread ⟨s.active, [], ⟨t, stage, d⟩ :: blocks⟩ = _ :=
    run_kept (b := ⟨t, stage, d⟩) hkept hstage s.stream.unread hnever.1
  have hawaited (inside : List Token) :
      (inside.foldl (fun stage u => stage.keep u) stage).awaited = [name] := by
    rw [← hstage]
    cases stage with
    | skipped => rw [foldl_keep_skipped]
    | verbatim source => rw [foldl_keep_verbatim]; rfl
    | _ => simp [Stage.isOpaque] at hkept
  obtain ⟨-, rfl⟩ := hnever
  rw [Fails, outcome, hrun]
  cases hfault : s.stream.fault with
  | some e => exact ⟨hfits.settled e hfault, rfl⟩
  | none =>
    refine ⟨CompileError.settled_of_line _ _, ?_⟩
    change (Except.error _ : Except CompileError (List Node)) = _
    rw [hawaited]
    rfl

end Kept

/-! ## Branches -/

section Branches

variable {s : Session}

/-- Compiling token by token fails in every branch of an `if` tag. -/
def FailsInBranch (env : Environment) (room : Nat) (s : Session) (e : CompileError) : Prop :=
  ∀ o before c nodes d blocks, Fits s room (⟨o, .branch before c, d⟩ :: blocks) →
    Fails env ⟨s.active, nodes, ⟨o, .branch before c, d⟩ :: blocks⟩ s e

/-- A failure after the tag that ends a branch, where that tag goes on with the stage `next`. -/
theorem failsInBranch_of_next {s₁ : Session} {m : Token} {name : String} {e : CompileError}
    (htook : s.Took [m] s₁) (hactive : s₁.active = s.active) (hm : m.isBlock name)
    (hname : name ∈ StandardTag.branchEnds) (next : List (Condition × List Node) → Stage)
    (hresume : ∀ before c nodes, Stage.resume (env.filterLookup s.active) nodes m (.branch before c) =
      .ok (.again (next (before ++ [(c, nodes)]))))
    (hfail : ∀ o branches d blocks, Fits s₁ room (⟨o, next branches, d⟩ :: blocks) →
      Fails env ⟨s₁.active, [], ⟨o, next branches, d⟩ :: blocks⟩ s₁ e) :
    FailsInBranch env room s e := by
  intro o before c nodes d blocks hfits
  have hstep := step_awaited env s.active nodes ⟨o, .branch before c, d⟩ blocks hm hname
  rw [hresume] at hstep
  have hfits' : Fits s₁ room (⟨o, next (before ++ [(c, nodes)]), d⟩ :: blocks) :=
    ⟨(hfits.took htook).openers, hfits.room, (hfits.took htook).settled⟩
  have hlater := hfail o _ d blocks hfits'
  rw [hactive] at hlater
  exact hlater.of_run htook (run_cons_ok hstep)

/-- A failure over the tag that ends a branch. -/
theorem failsInBranch_of_error {s₁ : Session} {m : Token} {name : String} {e : CompileError}
    (htook : s.Took [m] s₁) (hm : m.isBlock name) (hname : name ∈ StandardTag.branchEnds)
    (hsettled : e.Settled) (hresume : ∀ before c nodes,
      Stage.resume (env.filterLookup s.active) nodes m (.branch before c) = .error e) :
    FailsInBranch env room s e := by
  intro o before c nodes d blocks _
  have hstep := step_awaited env s.active nodes ⟨o, .branch before c, d⟩ blocks hm hname
  rw [hresume] at hstep
  refine ⟨hsettled, ?_⟩
  rw [htook.unread_eq, List.singleton_append, outcome_cons, hstep]
  rfl

/-- The branches that start with `elif`, from the tag after the first branch on. -/
theorem ends_elifBranches (hparse : ParsesBodies env room parse) {n : Nat} {s₁ : Session} {t : Token}
    (htook : s.Took [t] s₁) (hactive : s₁.active = s.active)
    (ht : ∃ name ∈ StandardTag.branchEnds, t.isBlock name) (hn : s₁.stream.unread.length < n) :
    Ends (StandardTag.elifBranches (env.handleWith parse calls) n t) s₁
      (fun found s' => ∃ v s₂, s.Took v s₂ ∧ s₂.Took [found.2] s' ∧ s'.active = s₂.active ∧
        Elifs env (Body env room) s.active v found.1 s₂.active ∧
        (found.2.isBlock "else" ∨ found.2.isBlock "endif"))
      (fun e s' => s'.openTags = s.openTags ∧ FailsInBranch env room s e) := by
  induction n generalizing s s₁ t with
  | zero => omega
  | succ n ih =>
    obtain ⟨name, hname, hblock⟩ := ht
    have htag : t.tagName = name := (Token.isBlock_iff.mp hblock).2
    rw [StandardTag.elifBranches]
    by_cases helif : name = "elif"
    · subst helif
      rw [if_pos (by simpa using htag)]
      apply Ends.bind
      apply ends_atLine
      refine ends_of_result (condition_run env parse calls s₁ _ _) (fun c hc => ?_) (fun e he => ?_)
      · rw [hactive] at hc
        -- a failure after the tag is met in the branch that it starts
        have hnext {e : CompileError} (hfail : ∀ o branches d blocks,
            Fits s₁ room (⟨o, .branch branches c, d⟩ :: blocks) →
              Fails env ⟨s₁.active, [], ⟨o, .branch branches c, d⟩ :: blocks⟩ s₁ e) :
            FailsInBranch env room s e := by
          refine failsInBranch_of_next htook hactive hblock hname (fun branches => .branch branches c) ?_ hfail
          intro before c' nodes'
          rw [Stage.resume, if_pos htag, hc]
        rw [handleWith_parse]
        apply Ends.bind
        apply (hparse _ s₁).imp
        · rintro nodes s₂ ⟨u, htook', hbody, hstopped⟩
          obtain ⟨m, rest, hunread, hm⟩ := hstopped.exists_token (by simp [StandardTag.branchEnds])
          obtain ⟨s₃, hrun, htook'', hactive'⟩ := next_run hunread
          have hlength : s₃.stream.unread.length < n := by
            rw [htook'.unread_eq, htook''.unread_eq, List.length_append, List.length_append,
              List.length_singleton] at hn
            omega
          apply ends_bind_ok hrun
          apply Ends.bind
          apply (ih htook'' hactive' hm hlength).imp
          · rintro ⟨more, last⟩ s' ⟨v, s₄, htaken, hlast, hactive'', helifs, hend⟩
            rw [hactive] at hbody
            exact ends_of_ok rfl ⟨t :: u ++ v, s₄, (htook.cons htook').trans htaken, hlast, hactive'',
              .cons hblock hc hbody helifs, hend⟩
          · rintro e s' ⟨hopen, hfail⟩
            refine ⟨hopen.trans (htook.cons htook').openTags_eq, hnext fun o branches d blocks hfits => ?_⟩
            have hbodyRun := body_runs env room hbody [] (⟨o, .branch branches c, d⟩ :: blocks)
              hfits.room.le (by simp [Compiles, Stage.isOpaque])
            exact (hfail o branches c nodes d blocks (hfits.took htook')).of_run htook' hbodyRun
        · rintro e s' ⟨hopen, hfail⟩
          refine ⟨hopen.trans htook.openTags_eq, hnext fun o branches d blocks hfits => ?_⟩
          exact hfail [] _ hfits (by simp [Compiles, Stage.isOpaque]) rfl
      · rw [hactive] at he
        refine ⟨htook.openTags_eq, failsInBranch_of_error htook hblock hname (e.atLine_settled _) ?_⟩
        intro before c nodes
        rw [Stage.resume, if_pos htag, he]
    · rw [if_neg (by simpa [htag] using helif)]
      refine ends_of_ok rfl ⟨[], s, .refl s, htook, hactive, .nil, ?_⟩
      rcases List.mem_pair.mp ((List.mem_cons.mp hname).resolve_left helif) with rfl | rfl
      · exact .inl hblock
      · exact .inr hblock

/-- The end of an `if` tag, from the tag after its last condition's branch on. -/
theorem ends_elseBranch (hparse : ParsesBodies env room parse) {s₁ : Session} {t : Token}
    (htook : s.Took [t] s₁) (hactive : s₁.active = s.active) (ht : t.isBlock "else" ∨ t.isBlock "endif") :
    Ends (StandardTag.elseBranch (env.handleWith parse calls) t) s₁
      (fun otherwise s' => ∃ w, s.Took w s' ∧ Grammar.Ending (Body env room)
        (fun m => m.isBlock "else" ∧ m.tagContent = "") "endif" s.active w otherwise s'.active)
      (fun e s' => s'.openTags = s.openTags ∧ FailsInBranch env room s e) := by
  rw [StandardTag.elseBranch]
  rcases ht with ht | ht
  · have htag : t.tagName = "else" := (Token.isBlock_iff.mp ht).2
    have hname : "else" ∈ StandardTag.branchEnds := by simp [StandardTag.branchEnds]
    rw [if_pos (by simpa using htag)]
    by_cases hcontent : t.tagContent = ""
    · have hresume (before : List (Condition × List Node)) (c : Condition) (nodes : List Node) :
          Stage.resume (env.filterLookup s.active) nodes t (.branch before c) =
            .ok (.again (.otherwise (before ++ [(c, nodes)]))) := by
        simp [Stage.resume, htag, hcontent]
      rw [if_pos (by simpa using hcontent)]
      apply Ends.bind
      apply (ends_bodyUpTo hparse "endif").imp
      · rintro nodes s' ⟨u, e, htook', hbody, he⟩
        rw [hactive] at hbody
        exact ends_of_ok rfl ⟨t :: u ++ [e], htook.cons htook', .withBody ⟨ht, hcontent⟩ hbody he⟩
      · rintro e s' ⟨hopen, hfail⟩
        refine ⟨hopen.trans htook.openTags_eq, failsInBranch_of_next htook hactive ht hname .otherwise hresume ?_⟩
        exact fun o branches d blocks hfits => hfail [] _ hfits (by simp [Compiles, Stage.isOpaque]) rfl
    · rw [if_neg (by simpa using hcontent)]
      refine ends_of_error rfl ⟨htook.openTags_eq, ?_⟩
      apply failsInBranch_of_error htook ht hname (CompileError.settled_of_line _ _)
      intro before c nodes
      simp [Stage.resume, htag, hcontent]
  · have htag : t.tagName = "endif" := (Token.isBlock_iff.mp ht).2
    rw [if_neg (by simp [htag])]
    refine ends_of_ok rfl ⟨[t], htook, ?_⟩
    rw [hactive]
    exact .without ht

end Branches

end TextTemplate
