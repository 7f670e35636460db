import TextTemplate.Proofs.Compile.Building

/-!
# Compiling agrees with the grammar

With the standard tags, compiling a body succeeds exactly on what the grammar derives and gives the nodes of the
derivation, and where it fails, compiling token by token fails in the same way. So compiling source has the
outcome of the one pass over its tokens.
-/

namespace TextTemplate

open Grammar CompileM Progress

variable {env : Environment} {room : Nat} {stop : List String} {t : Token} {s s₁ : Session}

/-- A token is waited for if it is a block tag of the stop set. -/
theorem awaits_eq_stopSet (blocks : List OpenBlock) (t : Token) :
    awaits blocks t = (t.kind == .block && (stopSet blocks).contains t.tagName) := by
  cases blocks with
  | nil => simp [awaits, stopSet]
  | cons b outer => rfl

/-- No block waits for a tag without a name. -/
theorem awaits_eq_false_of_empty (h : t.tagName.isEmpty = true) (blocks : List OpenBlock) :
    awaits blocks t = false := by
  cases blocks with
  | nil => rfl
  | cons b outer =>
    have hname : t.tagName = "" := by simpa using h
    have hnot : "" ∉ b.stage.awaited := fun hmem => absurd (b.stage.awaited_subset hmem) (by decide)
    simp [awaits, hname, hnot]

/-- A failure after tokens that change nothing but the nodes and the active libraries. -/
theorem FailsIn.of_run {e : CompileError} {u : List Token} (h : FailsIn env room stop s₁ e) (htook : s.Took u s₁)
    (hrun : ∀ d blocks, blocks.length + room = Environment.maxOpenTags → Compiles blocks → stopSet blocks = stop →
      ∃ d', run env u ⟨s.active, d, blocks⟩ = .ok ⟨s₁.active, d', blocks⟩) : FailsIn env room stop s e := by
  intro d blocks hfits hc hstop
  obtain ⟨d', hrun⟩ := hrun d blocks hfits.room hc hstop
  exact (h d' blocks (hfits.took htook) hc hstop).of_run htook hrun

/-- A failure over the next token. -/
theorem failsIn_of_step {e : CompileError} (htook : s.Took [t] s₁) (hsettled : e.Settled)
    (hstep : ∀ d blocks, blocks.length + room = Environment.maxOpenTags → Compiles blocks →
      stopSet blocks = stop → step env ⟨s.active, d, blocks⟩ t = .error e) : FailsIn env room stop s e := by
  intro d blocks hfits hc hstop
  refine ⟨hsettled, ?_⟩
  rw [htook.unread_eq, List.singleton_append, outcome_cons, hstep d blocks hfits.room hc hstop]
  rfl

/-- At the end of the tokens, the innermost open block is the one that is not closed. -/
theorem failsIn_unclosed (hstop : stop ≠ []) (hnil : s.stream.unread = []) (hfault : s.stream.fault = none) :
    FailsIn env room stop s (unclosed stop s) := by
  rintro d (_ | ⟨b, outer⟩) hfits - hset
  · exact absurd hset.symm hstop
  · have hopen : s.openTags = b.opener :: outer.map (·.opener) := hfits.openers.symm
    rw [unclosed, hopen]
    refine ⟨CompileError.settled_of_line _ _, ?_⟩
    rw [hnil, hfault, ← hset]
    rfl

/-! ## One block tag -/

section OneBlock

variable (hname : t.tagName.isEmpty = false) (hkind : t.kind = .block) (hstop : stop.contains t.tagName = false)

include hname hkind hstop

/-- A block tag that is not waited for is compiled as an item. -/
theorem step_block {d : List Node} {blocks : List OpenBlock} {a : List Nat} (hc : Compiles blocks)
    (hset : stopSet blocks = stop) :
    step env ⟨a, d, blocks⟩ t = match env.directive? a t.tagName with
      | none => .error ⟨.unknownTag t.tagName stop, some t.line⟩
      | some k =>
        if Environment.maxOpenTags ≤ blocks.length then
          .error ⟨.tooManyOpenTags Environment.maxOpenTags, some t.line⟩
        else enter env ⟨a, d, blocks⟩ k t := by
  have hawaits : awaits blocks t = false := by rw [awaits_eq_stopSet, hset, hstop, Bool.and_false]
  rw [step_eq_item hc hawaits, item, hkind, hset]
  dsimp only
  refine (if_neg (by simp [hname])).trans ?_
  cases env.directive? a t.tagName <;> rfl

/-- Where no more tags may be open, no block tag compiles. -/
theorem ends_compileBlock_none (henv : env.StandardTagsOnly) (htook : s.Took [t] s₁)
    (hactive : s₁.active = s.active) : Ends (env.compileBlock none t stop) s₁ (fun _ _ => False)
      (fun e s' => s'.openTags = s.openTags ∧ FailsIn env 0 stop s e) := by
  have hget : (get : CompileM Session) s₁ = .ok s₁ s₁ := rfl
  rw [Environment.compileBlock]
  apply ends_bind_ok hget
  rw [Environment.tag?_eq_directive? henv, hactive]
  cases hdirective : env.directive? s.active t.tagName with
  | none =>
    refine ends_of_error rfl ⟨htook.openTags_eq, ?_⟩
    apply failsIn_of_step htook (CompileError.settled_of_line _ _)
    intro d blocks _ hc hset
    rw [step_block hname hkind hstop hc hset, hdirective]
  | some k =>
    refine ends_of_error rfl ⟨htook.openTags_eq, ?_⟩
    apply failsIn_of_step htook (CompileError.settled_of_line _ _)
    intro d blocks hroom hc hset
    rw [step_block hname hkind hstop hc hset, hdirective]
    exact if_pos (by omega)

/-- A block tag is compiled with the block that it opens. -/
theorem ends_compileBlock_some (henv : env.StandardTagsOnly) {parse : List String → CompileM (List Node)}
    (hparse : ParsesBodies env room parse) (htook : s.Took [t] s₁) (hactive : s₁.active = s.active) :
    Ends (env.compileBlock (some parse) t stop) s₁
      (fun node s' => ∃ u, s.Took (t :: u) s' ∧ Block env (Body env room) s.active (t :: u) node s'.active)
      (fun e s' => s'.openTags = s.openTags ∧ FailsIn env (room + 1) stop s e) := by
  have hget : (get : CompileM Session) s₁ = .ok s₁ s₁ := rfl
  rw [Environment.compileBlock]
  apply ends_bind_ok hget
  rw [Environment.tag?_eq_directive? henv, hactive]
  cases hdirective : env.directive? s.active t.tagName with
  | none =>
    refine ends_of_error rfl ⟨htook.openTags_eq, ?_⟩
    apply failsIn_of_step htook (CompileError.settled_of_line _ _)
    intro d blocks _ hc hset
    rw [step_block hname hkind hstop hc hset, hdirective]
  | some k =>
    have opens : Opens env s₁.active k t := ⟨hkind, hactive ▸ hdirective⟩
    apply ends_withOpenTag
    apply (directive_buildsBlock hparse (s := { s₁ with openTags := t :: s₁.openTags }) opens rfl).imp
    · rintro node s' ⟨u, htaken, hblock⟩
      rw [hactive] at hblock
      exact ⟨u, ⟨htook.stream.trans htaken.stream, htook.openTags_eq⟩, hblock⟩
    · rintro e s' ⟨-, hfail⟩
      refine ⟨htook.openTags_eq, fun d blocks hfits hc hset => ⟨CompileError.atLine_settled e _, ?_⟩⟩
      have hfits' (stage : Stage) :
          Fits { s₁ with openTags := t :: s₁.openTags } room (⟨t, stage, d⟩ :: blocks) :=
        { openers := by rw [List.map_cons, (hfits.took htook).openers]
          room := by rw [← hfits.room, List.length_cons]; omega
          settled := (hfits.took htook).settled }
      have hlt : ¬ Environment.maxOpenTags ≤ blocks.length := by have := hfits.room; omega
      rw [htook.unread_eq, List.singleton_append, outcome_cons, step_block hname hkind hstop hc hset, hdirective,
        ← htook.fault_eq, ← hactive]
      dsimp only
      rw [if_neg hlt]
      exact hfail d blocks hfits'

end OneBlock

/-! ## Bodies -/

/-- What is asked of compiling a body whose blocks are `Blk`. -/
def ParsesItems (env : Environment) (Blk : Derives (Option Node)) (room : Nat) (stop : List String)
    (m : CompileM (List Node)) (s : Session) : Prop :=
  Ends m s (fun nodes s' => ∃ u, s.Took u s' ∧ Items env Blk s.active u nodes s'.active ∧ StoppedAt stop s'.stream)
    (fun e s' => s'.openTags = s.openTags ∧ FailsIn env room stop s e)

/-- What is asked of compiling the rest of a body at `s₁`, where the body started at `s`. -/
def ParsesRest (env : Environment) (Blk : Derives (Option Node)) (room : Nat) (stop : List String) (s : Session)
    (m : CompileM (List Node)) (s₁ : Session) : Prop :=
  Ends m s₁ (fun nodes s' => ∃ u, s.Took u s' ∧ Items env Blk s.active u nodes s'.active ∧ StoppedAt stop s'.stream)
    (fun e s' => s'.openTags = s.openTags ∧ FailsIn env room stop s e)

/-- A body goes on after its first part, which stands for the nodes `first`. -/
theorem ParsesItems.after {Blk : Derives (Option Node)} {m : CompileM (List Node)} {u : List Token}
    (first : List Node) (h : ParsesItems env Blk room stop m s₁) (htook : s.Took u s₁)
    (hitem : ∀ {w more a'}, Items env Blk s₁.active w more a' → Items env Blk s.active (u ++ w) (first ++ more) a')
    (hrun : ∀ d blocks, blocks.length + room ≤ Environment.maxOpenTags → Compiles blocks → stopSet blocks = stop →
      run env u ⟨s.active, d, blocks⟩ = .ok ⟨s₁.active, d ++ first, blocks⟩) :
    ParsesRest env Blk room stop s (do return first ++ (← m)) s₁ := by
  apply Ends.bind
  apply h.imp
  · rintro more s' ⟨w, htook', hitems, hstopped⟩
    exact ends_of_ok rfl ⟨u ++ w, htook.trans htook', hitem hitems, hstopped⟩
  · rintro e s' ⟨hopen, hfail⟩
    refine ⟨hopen.trans htook.openTags_eq, hfail.of_run htook fun d blocks hroom hc hset => ?_⟩
    exact ⟨d ++ first, hrun d blocks hroom.le hc hset⟩

/-! ### One item -/

section OneItem

variable {Blk : Derives (Option Node)} {m : CompileM (List Node)} (htook : s.Took [t] s₁)
  (hactive : s₁.active = s.active)

/-- Only a block tag is waited for. -/
theorem step_item (hkind : t.kind ≠ .block) (d : List Node) {blocks : List OpenBlock} (hc : Compiles blocks) :
    step env ⟨s.active, d, blocks⟩ t = item env ⟨s.active, d, blocks⟩ (stopSet blocks) t :=
  step_eq_item hc (awaits_eq_false_of_kind hkind)

include htook hactive

theorem parsesRest_text (hkind : t.kind = .text) (hlater : ParsesItems env Blk room stop m s₁) :
    ParsesRest env Blk room stop s (do return .text t.content :: (← m)) s₁ := by
  refine ParsesItems.after [.text t.content] hlater htook (fun h => .text hkind (hactive ▸ h))
    (fun d blocks _ hc _ => run_cons_ok ?_)
  rw [step_item (by simp [hkind]) d hc, item, hkind, hactive]

theorem parsesRest_comment (hkind : t.kind = .comment) (hlater : ParsesItems env Blk room stop m s₁) :
    ParsesRest env Blk room stop s m s₁ := by
  have hafter := ParsesItems.after [] hlater htook (fun h => .comment hkind (hactive ▸ h))
    (fun d blocks _ hc _ => run_cons_ok (u := []) ?_)
  · simpa using hafter
  · rw [step_item (by simp [hkind]) d hc, item, hkind, hactive, List.append_nil]

/-- An expression that compiles is one item; an empty tag and an expression that does not compile fail. -/
theorem parsesRest_variable (hkind : t.kind = .variable) (hlater : ParsesItems env Blk room stop m s₁) :
    ParsesRest env Blk room stop s (if t.content.isEmpty then throw ⟨.emptyVariableTag, some t.line⟩ else do
      let e ← env.compileVariable t
      return .output e :: (← m)) s₁ := by
  have hstep (d : List Node) {blocks : List OpenBlock} (hc : Compiles blocks) :
      step env ⟨s.active, d, blocks⟩ t = _ := (step_item (by simp [hkind]) d hc).trans (by rw [item, hkind])
  cases hempty : t.content.isEmpty with
  | true =>
    rw [if_pos rfl]
    refine ends_of_error rfl ⟨htook.openTags_eq, ?_⟩
    apply failsIn_of_step htook (CompileError.settled_of_line _ _)
    intro d blocks _ hc _
    rw [hstep d hc]
    exact if_pos hempty
  | false =>
    rw [if_neg Bool.false_ne_true]
    have hget : (get : CompileM Session) s₁ = .ok s₁ s₁ := rfl
    apply Ends.bind
    apply ends_bind_ok hget
    apply ends_atLine
    rw [hactive]
    refine ends_of_result rfl (fun e he => ?_) (fun e he => ?_)
    · refine ParsesItems.after [.output e] hlater htook (fun h => .output hkind he (hactive ▸ h))
        (fun d blocks _ hc _ => run_cons_ok ?_)
      rw [step_item (by simp [hkind]) d hc, item_output hkind he, hactive]
    · refine ⟨htook.openTags_eq, failsIn_of_step htook (CompileError.atLine_settled e _) ?_⟩
      intro d blocks _ hc _
      rw [hstep d hc, hempty]
      simp only [Bool.false_eq_true, if_false, he]

/-- A tag of the stop set is put back and ends the body. -/
theorem parsesRest_stop (hkind : t.kind = .block) (hstop : stop.contains t.tagName = true) :
    ParsesRest env Blk room stop s (do prepend t; return []) s₁ := by
  obtain ⟨s₂, hrun, htook', hactive', hunread⟩ := prepend_run htook
  refine ends_bind_ok hrun (ends_of_ok rfl ⟨[], htook', ?_, stoppedAt_of_unread hunread hkind hstop⟩)
  rw [hactive', hactive]
  exact .nil

omit hactive in
theorem parsesRest_unnamed (hkind : t.kind = .block) (hname : t.tagName.isEmpty = true) :
    ParsesRest env Blk room stop s (throw ⟨.emptyBlockTag, some t.line⟩) s₁ := by
  refine ends_of_error rfl ⟨htook.openTags_eq, ?_⟩
  apply failsIn_of_step htook (CompileError.settled_of_line _ _)
  intro d blocks _ hc _
  rw [step_eq_item hc (awaits_eq_false_of_empty hname blocks), item, hkind]
  exact if_pos hname

end OneItem

/-- A body ends where the tokens end, if it is not to end at a tag. -/
theorem parsesItems_end {Blk : Derives (Option Node)} (hnil : s.stream.unread = [])
    (hfault : s.stream.fault = none) :
    ParsesItems env Blk room stop (do if stop.isEmpty then return [] else throw (unclosed stop (← get))) s := by
  by_cases hstop : stop = []
  · subst hstop
    exact ends_of_ok rfl ⟨[], .refl s, .nil, by simp [StoppedAt, hnil, hfault]⟩
  · have hne : stop.isEmpty = false := by simpa using hstop
    have hget : (get : CompileM Session) s = .ok s s := rfl
    rw [hne, if_neg Bool.false_ne_true]
    exact ends_bind_ok hget (ends_of_error rfl ⟨rfl, failsIn_unclosed hstop hnil hfault⟩)

/-- Compiling a body takes its items one after the other, given that its blocks are compiled. -/
theorem parseWithin_items {Blk : Derives (Option Node)}
    {inner : Option (List String → CompileM (List Node))}
    (hruns : ∀ {a u node a'}, Blk a u node a' → ∀ d blocks, blocks.length + room ≤ Environment.maxOpenTags →
      Compiles blocks → run env u ⟨a, d, blocks⟩ = .ok ⟨a', d ++ node.toList, blocks⟩)
    (hblock : ∀ {t : Token} {s s₁ : Session}, t.tagName.isEmpty = false → t.kind = .block →
      stop.contains t.tagName = false → s.Took [t] s₁ → s₁.active = s.active →
      Ends (env.compileBlock inner t stop) s₁
        (fun node s' => ∃ u, s.Took (t :: u) s' ∧ Blk s.active (t :: u) node s'.active)
        (fun e s' => s'.openTags = s.openTags ∧ FailsIn env room stop s e))
    {n : Nat} (hn : s.stream.unread.length < n) :
    ParsesItems env Blk room stop (env.parseWithin inner stop n) s := by
  induction n generalizing s with
  | zero => omega
  | succ n ih =>
    rw [ParsesItems, Environment.parseWithin]
    refine ends_read (fun t s₁ htook hactive => ?_) (fun e s' hnil hfault hopen => ?_)
      (fun hnil hfault => parsesItems_end hnil hfault)
    · -- there is a token less after each item
      have hlater {u : List Token} {s' : Session} (h : s.Took (t :: u) s') :
          ParsesItems env Blk room stop (env.parseWithin inner stop n) s' := by
        refine ih ?_
        rw [h.unread_eq, List.length_append, List.length_cons] at hn
        omega
      match hkind : t.kind with
      | .text => exact parsesRest_text htook hactive hkind (hlater htook)
      | .comment => exact parsesRest_comment htook hactive hkind (hlater htook)
      | .variable => exact parsesRest_variable htook hactive hkind (hlater htook)
      | .block =>
        dsimp only
        split_ifs with hname hstop
        · exact parsesRest_unnamed htook hkind hname
        · exact parsesRest_stop htook hactive hkind hstop
        · apply Ends.bind
          apply (hblock (by simpa using hname) hkind (by simpa using hstop) htook hactive).imp
          · rintro node s₂ ⟨u, htaken, hu⟩
            exact ParsesItems.after node.toList (hlater htaken) htaken (fun h => .block hu h)
              (fun d blocks hroom hc _ => hruns hu d blocks hroom hc)
          · exact fun _ _ h => h
    · refine ⟨hopen, fun d blocks hfits _ _ => ⟨hfits.settled e hfault, ?_⟩⟩
      rw [hnil, hfault]
      rfl

/-- Bodies are compiled as the grammar has them, however many more tags may be open. -/
theorem parseAt_parsesBodies (henv : env.StandardTagsOnly) (room : Nat) :
    ParsesBodies env room (env.parseAt room) := by
  induction room with
  | zero =>
    intro stop s
    have hitems : ParsesItems env (fun _ _ _ _ => False) 0 stop
        (env.parseWithin none stop (s.stream.unread.length + 1)) s :=
      parseWithin_items (fun h => h.elim) (fun hname hkind hstop htook hactive =>
        (ends_compileBlock_none hname hkind hstop henv htook hactive).imp (fun _ _ h => h.elim) (fun _ _ h => h))
        (Nat.lt_succ_self _)
    exact ends_bind_ok (rounds_run s) hitems
  | succ room ih =>
    intro stop s
    have hitems : ParsesItems env (Block env (Body env room)) (room + 1) stop
        (env.parseWithin (some (env.parseAt room)) stop (s.stream.unread.length + 1)) s :=
      parseWithin_items (fun h d blocks hroom hc => Runs.block (body_runs env room) h d blocks hroom hc)
        (fun hname hkind hstop htook hactive =>
          ends_compileBlock_some hname hkind hstop henv ih htook hactive)
        (Nat.lt_succ_self _)
    exact ends_bind_ok (rounds_run s) hitems

/-- The failure at the end of source has its line. -/
theorem tokens_fault_settled {source : String} {e : CompileError} (h : (Lexer.tokens source).2 = some e) :
    e.Settled := by
  obtain ⟨rest, hrest⟩ := Lexer.scan_partitions source.toList 1
  obtain ⟨kind, -, inside, -, -, rfl⟩ := (hrest.fault_iff e).mp h
  exact CompileError.settled_of_line _ _

/-- A template that compiles is parsed to the end of its source. -/
theorem exists_parse_of_compile_eq_ok {base : List Nat} {source : String} {nodes : List Node}
    (h : env.compile base source = .ok nodes) :
    ∃ s, env.parseAt Environment.maxOpenTags [] (Session.ofSource source base) = .ok nodes s := by
  rw [Environment.compile] at h
  cases hrun : (env.parse []).run (Session.ofSource source base) with
  | ok nodes' s =>
    rw [hrun] at h
    obtain rfl : nodes' = nodes := by simpa using h
    exact ⟨s, hrun⟩
  | error e s =>
    rw [hrun] at h
    cases h

/-- All tokens of source that is compiled with room for so many open tags are one body with this room. -/
theorem body_of_parseAt_eq_ok (henv : env.StandardTagsOnly) {base : List Nat} {source : String}
    {nodes : List Node} {s' : Session} (h : env.parseAt room [] (Session.ofSource source base) = .ok nodes s') :
    (Lexer.tokens source).2 = none ∧ Body env room base (Lexer.tokens source).1 nodes s'.active := by
  have hparse := parseAt_parsesBodies henv room [] (Session.ofSource source base)
  obtain ⟨u, htook, hbody, hstopped⟩ := hparse.of_ok h
  obtain ⟨hnil, hnone⟩ : s'.stream.unread = [] ∧ s'.stream.fault = none := hstopped
  have hunread : (Lexer.tokens source).1 = u := by
    rw [← List.append_nil u, ← hnil]
    exact htook.unread_eq
  exact ⟨htook.fault_eq.symm.trans hnone, hunread ▸ hbody⟩

/-- All tokens of a template that compiles are one body. -/
theorem body_of_compile_eq_ok (henv : env.StandardTagsOnly) {base : List Nat} {source : String}
    {nodes : List Node} (h : env.compile base source = .ok nodes) : (Lexer.tokens source).2 = none ∧
      ∃ active, Body env Environment.maxOpenTags base (Lexer.tokens source).1 nodes active := by
  obtain ⟨s', hrun⟩ := exists_parse_of_compile_eq_ok h
  obtain ⟨hnone, hbody⟩ := body_of_parseAt_eq_ok henv hrun
  exact ⟨hnone, s'.active, hbody⟩

/-- A body that is all the tokens of a template is run to its end. -/
theorem outcome_of_body {base active : List Nat} {tokens : List Token} {nodes : List Node}
    (h : Body env Environment.maxOpenTags base tokens nodes active) :
    (start base).outcome env tokens none = .ok nodes := by
  have hrun : run env tokens (start base) = .ok ⟨active, nodes, []⟩ :=
    body_runs env _ h [] [] (by simp) (by simp [Compiles])
  rw [outcome, hrun]
  rfl

/-- Compiling source has the outcome of the one pass over its tokens. -/
theorem compile_eq_outcome (henv : env.StandardTagsOnly) (base : List Nat) (source : String) :
    env.compile base source =
      (start base).outcome env (Lexer.tokens source).1 (Lexer.tokens source).2 := by
  cases h : env.compile base source with
  | ok nodes =>
    obtain ⟨hnone, active, hbody⟩ := body_of_compile_eq_ok henv h
    rw [hnone, outcome_of_body hbody]
  | error e =>
    have hparse := parseAt_parsesBodies henv Environment.maxOpenTags [] (Session.ofSource source base)
    rw [Environment.compile] at h
    cases hrun : (env.parse []).run (Session.ofSource source base) with
    | ok nodes s' =>
      rw [hrun] at h
      cases h
    | error e' s' =>
      rw [hrun] at h
      obtain rfl : e' = e := by simpa using h
      obtain ⟨-, hfail⟩ := hparse.of_error hrun
      have hfits : Fits (Session.ofSource source base) Environment.maxOpenTags [] :=
        ⟨rfl, by simp, fun e he => tokens_fault_settled he⟩
      exact (hfail [] [] hfits (by simp [Compiles]) rfl).2.symm

end TextTemplate
