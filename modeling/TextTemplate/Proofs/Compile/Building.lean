import TextTemplate.Proofs.Compile.Tags

/-!
# Directives build their blocks

The twelve standard tags one by one: what each reads from its header is what its directive opens with, and the
tokens it takes are one block of the grammar.
-/

namespace TextTemplate

open Grammar CompileM Progress

variable {env : Environment} {room calls : Nat} {parse : List String → CompileM (List Node)} {t : Token}
  {s : Session}

/-- A tag without a body that only reads its header. -/
theorem buildsBlock_leaf {α : Type} {k : Directive} {r : Except CompileError α} {f : α → CompileM (Option Node)}
    {m : CompileM (Option Node)} (node : α → Node) (hm : m s = (do f (← ofResult r)) s)
    (hf : ∀ a s, f a s = .ok (some (node a)) s)
    (hopening : k.opening env s.active t.tagContent = (do return .leaf (some (node (← r))) s.active))
    (hblock : ∀ a, r = .ok a → Block env (Body env room) s.active [t] (some (node a)) s.active) :
    BuildsBlock env room k t m s := by
  cases r with
  | ok a => exact ends_of_ok (hm.trans (hf a s)) ⟨[], .refl s, hblock a rfl⟩
  | error e => exact ends_of_error hm ⟨rfl, failsFrom_header hopening⟩

/-- A tag that reads its header and goes on to build a block. -/
theorem buildsBlock_header {α : Type} {k : Directive} {r : Except CompileError α}
    {f : α → CompileM (Option Node)} {m : CompileM (Option Node)} (stage : α → Stage)
    (hm : m s = (do f (← ofResult r)) s)
    (hopening : k.opening env s.active t.tagContent = (do return .block (stage (← r))))
    (hf : ∀ a, r = .ok a → k.opening env s.active t.tagContent = .ok (.block (stage a)) →
      BuildsBlock env room k t (f a) s) : BuildsBlock env room k t m s := by
  cases r with
  | ok a =>
    have h := hf a rfl hopening
    rw [BuildsBlock, Ends] at h ⊢
    rw [hm]
    exact h
  | error e => exact ends_of_error hm ⟨rfl, failsFrom_header hopening⟩

/-! ## Tags without a body -/

theorem load_buildsBlock (opens : Opens env s.active .load t) :
    BuildsBlock env room .load t (StandardTag.load t.tagContent (env.handleWith parse calls)) s := by
  have hopening : Directive.load.opening env s.active t.tagContent =
      (do return .leaf none (← HeaderReader.load env s.active t.tagContent)) := rfl
  have hreads : HeaderReader.load env s.active t.tagContent = HeaderReader.load env s.active t.tagContent := rfl
  unfold StandardTag.load
  conv at hreads => rhs; unfold HeaderReader.load
  by_cases hnames : ((Text.words t.tagContent.toList).map String.ofList).isEmpty
  · simp only [hnames, if_true] at hreads ⊢
    refine ends_of_error rfl ⟨rfl, failsFrom_header ?_⟩
    rw [hopening, hreads]
    rfl
  · simp only [hnames, Bool.false_eq_true, if_false] at hreads ⊢
    have hrun := load_run env parse calls s ((Text.words t.tagContent.toList).map String.ofList)
    rw [← hreads] at hrun
    apply Ends.bind
    cases h : HeaderReader.load env s.active t.tagContent with
    | ok active =>
      rw [h] at hrun
      exact ends_of_ok hrun (ends_of_ok rfl ⟨[], ⟨⟨rfl, rfl⟩, rfl⟩, .load opens h⟩)
    | error e =>
      rw [h] at hrun
      obtain ⟨active, hrun⟩ := hrun
      refine ends_of_error hrun ⟨rfl, failsFrom_header ?_⟩
      rw [hopening, h]
      rfl

theorem firstOf_buildsBlock (opens : Opens env s.active .firstOf t) :
    BuildsBlock env room .firstOf t (StandardTag.firstOf t.tagContent (env.handleWith parse calls)) s := by
  refine buildsBlock_leaf (r := HeaderReader.candidates (env.filterLookup s.active) t.tagContent)
    (f := fun found => pure (some (.firstTrue found))) .firstTrue ?_ (fun _ _ => rfl) rfl
    (fun _ h => .firstOf opens h)
  unfold StandardTag.firstOf HeaderReader.candidates
  by_cases hbits : (Bits.ofString t.tagContent).isEmpty
  · simp only [hbits, if_true]
    rfl
  · simp only [hbits, Bool.false_eq_true, if_false]
    rw [run_bind, run_bind, expressions_run]

theorem symbol_buildsBlock (h : Handle) (opens : Opens env s.active .symbol t) :
    BuildsBlock env room .symbol t (StandardTag.symbol t.tagContent h) s := by
  refine buildsBlock_leaf (r := HeaderReader.symbol t.tagContent) (f := fun found => pure (some (.text found)))
    .text ?_ (fun _ _ => rfl) rfl (fun _ h => .symbol opens h)
  unfold StandardTag.symbol HeaderReader.symbol
  cases Header.symbol t.tagContent <;> rfl

/-! ## Tags that keep their inside from the compiler -/

theorem comment_buildsBlock (h : Handle) (opens : Opens env s.active .comment t) {outer : List Token}
    (hopen : s.openTags = t :: outer) :
    BuildsBlock env room .comment t (StandardTag.comment t.tagContent h) s := by
  have hmissing (s' : Session) (hs' : s'.openTags = s.openTags) :
      unclosed ["endcomment"] s' = ⟨.unclosedTag (some t.tagName) ["endcomment"], some t.line⟩ := by
    rw [unclosed, hs', hopen]
  apply Ends.bind
  rw [skipPast]
  apply ends_bind_ok (rounds_run s)
  apply (ends_skipWithin hmissing (Nat.lt_succ_self _)).imp
  · rintro _ s' ⟨hactive, inside, e, htook, hinside, he⟩
    refine ends_of_ok rfl ⟨inside ++ [e], htook, ?_⟩
    rw [hactive]
    exact .comment opens hinside he
  · exact fun e s' ⟨hopen', hnever⟩ => ⟨hopen', failsFrom_kept rfl rfl rfl hnever⟩

theorem verbatim_buildsBlock (h : Handle) (opens : Opens env s.active .verbatim t) {outer : List Token}
    (hopen : s.openTags = t :: outer) :
    BuildsBlock env room .verbatim t (StandardTag.verbatim t.tagContent h) s := by
  have hname : t.tagName = "verbatim" := (Environment.directive?_name opens.2).symm
  apply ends_bind_ok (rounds_run s)
  apply Ends.bind
  apply (ends_verbatimWithin hopen (Nat.lt_succ_self _)).imp
  · rintro _ s' ⟨hactive, inside, e, htook, rfl, hinside, he⟩
    refine ends_of_ok rfl ⟨inside ++ [e], htook, ?_⟩
    rw [hactive]
    exact .verbatim opens hinside he
  · rintro e s' ⟨hopen', hnever⟩
    rw [← hname] at hnever
    exact ⟨hopen', failsFrom_kept rfl rfl rfl hnever⟩

/-! ## Tags with bodies -/

theorem spaceless_buildsBlock (hparse : ParsesBodies env room parse) (opens : Opens env s.active .spaceless t) :
    BuildsBlock env room .spaceless t (StandardTag.spaceless t.tagContent (env.handleWith parse calls)) s :=
  buildsBlock_body hparse rfl rfl rfl .spaceless (fun hbody he => .spaceless opens hbody he)

theorem filtered_buildsBlock (hparse : ParsesBodies env room parse) (opens : Opens env s.active .filtered t) :
    BuildsBlock env room .filtered t (StandardTag.filtered t.tagContent (env.handleWith parse calls)) s := by
  refine buildsBlock_header (r := Pipeline.compileChain (env.filterLookup s.active) t.tagContent)
    .filteredBody ?_ rfl (fun calls' hreads hopening => ?_)
    (f := fun found => do
      return some (.filtered found (← (env.handleWith parse calls).bodyUpTo "endfilter")))
  · rw [StandardTag.filtered, run_bind_ok (handleWith_filters_run env parse calls s)]
  · exact buildsBlock_body hparse hopening rfl rfl (.filtered calls')
      (fun hbody he => .filtered opens hreads hbody he)

/-- Reading the header of `with` comes before its body. -/
theorem binding_run (content : String) : StandardTag.binding content (env.handleWith parse calls) s =
    (do
      let found ← ofResult (HeaderReader.bindings (env.filterLookup s.active) content)
      return some (Node.binding found (← (env.handleWith parse calls).bodyUpTo "endwith"))) s := by
  by_cases halias : ∃ source name, Bits.ofString content = [source, "as", name]
  · obtain ⟨source, name, hbits⟩ := halias
    rw [HeaderReader.bindings_alias hbits]
    unfold StandardTag.binding
    simp only [hbits]
    rw [run_bind, expression_run]
    cases Pipeline.compile (env.filterLookup s.active) source <;> rfl
  · have hbits : ∀ source name, Bits.ofString content ≠ [source, "as", name] := by simpa using halias
    have htag : StandardTag.binding content (env.handleWith parse calls) = (do
        let found ← StandardTag.assignments (env.handleWith parse calls) (Bits.ofString content)
        if found.isEmpty then failHeader .assignmentExpected
        else return some (Node.binding found (← (env.handleWith parse calls).bodyUpTo "endwith"))) := by
      unfold StandardTag.binding
      split
      · exact absurd ‹_› (hbits _ _)
      · rfl
    rw [htag, HeaderReader.bindings_assignments hbits, run_bind, assignments_run]
    cases HeaderReader.assignments (env.filterLookup s.active) (Bits.ofString content) with
    | error e => rfl
    | ok found => cases found <;> rfl

theorem binding_buildsBlock (hparse : ParsesBodies env room parse) (opens : Opens env s.active .binding t) :
    BuildsBlock env room .binding t (StandardTag.binding t.tagContent (env.handleWith parse calls)) s :=
  buildsBlock_header .bindingBody (binding_run t.tagContent) rfl fun found hreads hopening =>
    buildsBlock_body hparse hopening rfl rfl (.binding found) fun hbody he => .binding opens hreads hbody he

theorem loop_buildsBlock (hparse : ParsesBodies env room parse) (opens : Opens env s.active .loop t) :
    BuildsBlock env room .loop t (StandardTag.loop t.tagContent (env.handleWith parse calls)) s := by
  refine buildsBlock_header (r := HeaderReader.loop (env.filterLookup s.active) t.tagContent)
    (fun found => .loopBody found.1 found.2) ?_ rfl (fun found hreads hopening => ?_)
    (f := fun found => do
      let body ← (env.handleWith parse calls).parse ["empty", "endfor"]
      let empty ← StandardTag.secondBody (env.handleWith parse calls) "empty" "endfor"
      return some (.loop found.1.names found.2 found.1.reversed body empty))
  · unfold StandardTag.loop HeaderReader.loop
    cases Header.loop t.tagContent with
    | error fault => rfl
    | ok header =>
      dsimp only
      rw [run_bind, expression_run]
      cases Pipeline.compile (env.filterLookup s.active) header.sequence <;> rfl
  · exact buildsBlock_bodies hparse (by decide) (fun nodes => .loopEmpty found.1 found.2 nodes) hopening rfl
      (fun _ => rfl) rfl (fun _ => rfl)
      (fun _ _ m hm => by simp_all [Token.isBlock, Stage.resume])
      (fun body empty => .loop found.1.names found.2 found.1.reversed body empty)
      (fun hbody hending => .loop opens hreads hbody hending)

/-- Reading the header of a comparing tag comes before its bodies. -/
theorem equality_run (tag : String) (negated : Bool) (content : String) :
    StandardTag.equality tag negated content (env.handleWith parse calls) s =
      (do
        let found ← ofResult (HeaderReader.operands (env.filterLookup s.active) tag content)
        let whenTrue ← (env.handleWith parse calls).parse ["else", "end" ++ tag]
        let whenFalse ← StandardTag.secondBody (env.handleWith parse calls) "else" ("end" ++ tag)
        return some (Node.equality negated found.1 found.2 whenTrue whenFalse)) s := by
  by_cases hpair : ∃ a b, Bits.ofString content = [a, b]
  · obtain ⟨a, b, hbits⟩ := hpair
    rw [HeaderReader.operands_pair hbits]
    unfold StandardTag.equality
    simp only [hbits]
    rw [run_bind, expression_run]
    cases Pipeline.compile (env.filterLookup s.active) a with
    | error e => rfl
    | ok left =>
      rw [ofResult_run]
      dsimp only
      rw [run_bind, expression_run]
      cases Pipeline.compile (env.filterLookup s.active) b <;> rfl
  · have hbits : ∀ a b, Bits.ofString content ≠ [a, b] := by simpa using hpair
    have htag : StandardTag.equality tag negated content (env.handleWith parse calls) =
        failHeader (.twoArgumentsExpected tag) := by
      unfold StandardTag.equality
      split
      · exact absurd ‹_› (hbits _ _)
      · rfl
    rw [htag, HeaderReader.operands_other hbits]
    rfl

/-- The two comparing tags differ in their names and in which result they ask for. -/
theorem equality_buildsBlock (hparse : ParsesBodies env room parse) {k : Directive} {tag : String}
    {negated : Bool} (hopening : k.opening env s.active t.tagContent =
      (do
        let (left, right) ← HeaderReader.operands (env.filterLookup s.active) tag t.tagContent
        return .block (.whenTrue negated left right)))
    (hne : "else" ≠ "end" ++ tag)
    (hstage : ∀ left right, (Stage.whenTrue negated left right).awaited = ["else", "end" ++ tag])
    (hnext : ∀ left right nodes, (Stage.whenFalse negated left right nodes).awaited = ["end" ++ tag])
    (hblock : ∀ {u nodes a₁ w other a' left right},
      HeaderReader.operands (env.filterLookup s.active) tag t.tagContent = .ok (left, right) →
      Body env room s.active u nodes a₁ →
      Grammar.Ending (Body env room) (·.isBlock "else") ("end" ++ tag) a₁ w other a' →
      Block env (Body env room) s.active (t :: u ++ w)
        (some (.equality negated left right nodes (other.getD []))) a') :
    BuildsBlock env room k t (StandardTag.equality tag negated t.tagContent (env.handleWith parse calls)) s := by
  refine buildsBlock_header (fun found => .whenTrue negated found.1 found.2)
    (equality_run tag negated t.tagContent) hopening fun found hreads hopening => ?_
  exact buildsBlock_bodies hparse hne (fun nodes => .whenFalse negated found.1 found.2 nodes) hopening
    rfl (fun _ => rfl) (hstage _ _) (hnext _ _)
    (fun _ _ m hm => by simp_all [Token.isBlock, Stage.resume])
    (fun whenTrue whenFalse => .equality negated found.1 found.2 whenTrue whenFalse)
    (fun hbody hending => hblock hreads hbody hending)

theorem conditional_buildsBlock (hparse : ParsesBodies env room parse)
    (opens : Opens env s.active .conditional t) :
    BuildsBlock env room .conditional t
      (StandardTag.conditional t.tagContent (env.handleWith parse calls)) s := by
  refine buildsBlock_header (r := HeaderReader.condition (env.filterLookup s.active) "if" t.tagContent)
    (.branch []) ?_ rfl (fun c hreads hopening => ?_)
    (f := fun c => do
      let body ← (env.handleWith parse calls).parse StandardTag.branchEnds
      let elifs ← StandardTag.elifBranches (env.handleWith parse calls) (← rounds) (← next)
      let otherwise ← StandardTag.elseBranch (env.handleWith parse calls) elifs.2
      return some (.choice ((c, body) :: elifs.1) otherwise))
  · rw [StandardTag.conditional, run_bind, run_bind, condition_run]
  -- A failure after the first branch is met in some branch of the block.
  have hbranch {u : List Token} {nodes : List Node} {s₁ : Session} {e : CompileError} (htook : s.Took u s₁)
      (hbody : Body env room s.active u nodes s₁.active)
      (hfail : ∀ d blocks, Fits s₁ room (⟨t, .branch [] c, d⟩ :: blocks) →
        Fails env ⟨s₁.active, nodes, ⟨t, .branch [] c, d⟩ :: blocks⟩ s₁ e) :
      FailsFrom env room .conditional t s e := by
    refine failsFrom_stage hopening fun d blocks hfits => ?_
    have hrun := body_runs env room hbody [] (⟨t, .branch [] c, d⟩ :: blocks) hfits.room.le
      (by simp [Compiles, Stage.isOpaque])
    exact (hfail d blocks (hfits.took htook)).of_run htook hrun
  rw [handleWith_parse]
  apply Ends.bind
  apply (hparse _ s).imp
  · rintro nodes s₁ ⟨u, htook, hbody, hstopped⟩
    obtain ⟨m, rest, hunread, hm⟩ := hstopped.exists_token (by simp [StandardTag.branchEnds])
    obtain ⟨s₂, hrun, htook', hactive⟩ := next_run hunread
    have hlength : s₂.stream.unread.length < s₁.stream.unread.length + 1 := by
      rw [htook'.unread_eq, List.length_append]
      omega
    apply ends_bind_ok (rounds_run s₁)
    apply ends_bind_ok hrun
    apply Ends.bind
    apply (ends_elifBranches hparse htook' hactive hm hlength).imp
    · rintro ⟨more, last⟩ s₃ ⟨v, s₄, htaken, hlast, hactive', helifs, hend⟩
      apply Ends.bind
      apply (ends_elseBranch hparse hlast hactive' hend).imp
      · rintro otherwise s' ⟨w, htook'', hending⟩
        exact ends_of_ok rfl ⟨u ++ v ++ w, (htook.trans htaken).trans htook'',
          .conditional opens hreads hbody helifs hending⟩
      · rintro e s' ⟨hopen, hfail⟩
        refine ⟨hopen.trans (htook.trans htaken).openTags_eq, hbranch htook hbody fun d blocks hfits => ?_⟩
        have hroom : blocks.length + 1 + room ≤ Environment.maxOpenTags := hfits.room.le
        obtain ⟨before, c', nodes', -, hrunElifs⟩ :=
          Runs.elifs (body_runs env room) helifs (t := t) (d := d) hroom [] c nodes
        have hfits' : Fits s₄ room (⟨t, .branch before c', d⟩ :: blocks) :=
          ⟨(hfits.took htaken).openers, hfits.room, (hfits.took htaken).settled⟩
        exact (hfail t before c' nodes' d blocks hfits').of_run htaken hrunElifs
    · rintro e s' ⟨hopen, hfail⟩
      exact ⟨hopen.trans htook.openTags_eq, hbranch htook hbody (hfail t [] c nodes)⟩
  · rintro e s' ⟨hopen, hfail⟩
    exact ⟨hopen, failsFrom_body hopening rfl hfail⟩

/-- Every directive builds its block. -/
theorem directive_buildsBlock (hparse : ParsesBodies env room parse) {k : Directive} {outer : List Token}
    (opens : Opens env s.active k t) (hopen : s.openTags = t :: outer) :
    BuildsBlock env room k t (k.factory t.tagContent (env.handleWith parse calls)) s := by
  cases k with
  | load => exact load_buildsBlock opens
  | comment => exact comment_buildsBlock (env.handleWith parse calls) opens hopen
  | verbatim => exact verbatim_buildsBlock (env.handleWith parse calls) opens hopen
  | conditional => exact conditional_buildsBlock hparse opens
  | loop => exact loop_buildsBlock hparse opens
  | binding => exact binding_buildsBlock hparse opens
  | equality =>
    exact equality_buildsBlock hparse rfl (by decide) (fun _ _ => rfl) (fun _ _ _ => rfl)
      (fun hreads hbody hending => .equality opens hreads hbody hending)
  | inequality =>
    exact equality_buildsBlock hparse rfl (by decide) (fun _ _ => rfl) (fun _ _ _ => rfl)
      (fun hreads hbody hending => .inequality opens hreads hbody hending)
  | firstOf => exact firstOf_buildsBlock opens
  | symbol => exact symbol_buildsBlock (env.handleWith parse calls) opens
  | spaceless => exact spaceless_buildsBlock hparse opens
  | filtered => exact filtered_buildsBlock hparse opens

end TextTemplate
