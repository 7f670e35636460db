import TextTemplate.Proofs.Compile.TextPrefix

/-!
# Comments in a template

A comment may be put wherever no tag and no `verbatim` region is cut in two. It may split a text, and then the body
around it has two texts in place of one, which write the same; inside a block tag that drops its body there is nothing
to split. What comes after the comment is compiled as before, only that it may stand on other lines.
-/

namespace TextTemplate

open Segment Progress

variable {env : Environment} {base : List Nat} {p p' : Progress} {t : Token}

/-! ## Where a text or a comment stands -/

/-- Only `verbatim` takes note of what is kept from the compiler. -/
theorem Stage.keep_of_directive_ne {stage : Stage} (h : stage.directive ≠ .verbatim) (t : Token) :
    stage.keep t = stage := by
  cases stage with
  | verbatim source => exact absurd rfl h
  | _ => rfl

namespace Waiting

/-- Only block tags open and close blocks. -/
theorem after_of_kind_ne (ht : t.kind ≠ .block) (blocks : List Waiting) : after blocks t = blocks := if_neg ht

/-- Texts leave open what is open. -/
theorem openAfter_append_texts (u : List Token) (s : List Char) (line : Nat) :
    openAfter (u ++ tokensFrom line (texts s)) = openAfter u := by
  by_cases hs : s = []
  · simp [hs]
  · rw [texts_of_ne_nil hs, openAfter, List.foldl_append]
    exact after_of_kind_ne (t := Lexer.textToken s line) TokenKind.noConfusion _

end Waiting

namespace Progress

/-- The opening tags of blocks are those of their directives all along. -/
theorem run_isNamed {tokens : List Token} (h : run env tokens p = .ok p') (hnamed : ∀ b ∈ p.blocks, b.IsNamed) :
    ∀ b ∈ p'.blocks, b.IsNamed := by
  induction tokens generalizing p with
  | nil =>
    cases h
    exact hnamed
  | cons t tokens ih =>
    obtain ⟨p₁, hstep, hrun⟩ := bind_eq_ok_iff.mp (run_cons env t tokens p ▸ h)
    exact ih hrun (step_openBlocks hstep hnamed).1

/-- No open block takes note of its source. -/
def Heedless (blocks : List OpenBlock) : Prop := ∀ b ∈ blocks, b.stage.directive ≠ .verbatim

/-- Whether a block takes note of its source can be told from the names of the block tags. -/
theorem heedless_of_run {tokens : List Token} (h : run env tokens (start base) = .ok p)
    (hopen : ∀ w ∈ Waiting.openAfter tokens, w.opener.tagName ≠ "verbatim") : Heedless p.blocks := by
  have hnone : ∀ b ∈ (start base).blocks, b.IsNamed := by simp [start]
  intro b hb hverbatim
  have hname : b.opener.tagName = "verbatim" := by
    rw [run_isNamed h hnone b hb, hverbatim]
    rfl
  have hwaits : b.waiting ∈ Waiting.openAfter tokens := by
    rw [Waiting.openAfter, ← show (start base).blocks.map OpenBlock.waiting = [] from rfl, ← run_openBlocks h hnone]
    exact List.mem_map_of_mem hb
  exact hopen _ hwaits hname

/-- A block that drops its body drops all but block tags. -/
theorem step_dropped (hc : ¬ Compiles p.blocks) (hheedless : Heedless p.blocks) (ht : t.kind ≠ .block) :
    p.step env t = .ok p := by
  obtain ⟨active, nodes, _ | ⟨b, outer⟩⟩ := p
  · exact absurd (by simp [Compiles]) hc
  · have hopaque : b.stage.isOpaque = true := by simpa [Compiles] using hc
    have hkeep := Stage.keep_of_directive_ne (hheedless b List.mem_cons_self) t
    simp [step, awaits_eq_false_of_kind ht, hopaque, hkeep]

/-- A comment leaves all as it is. -/
theorem step_comment (hheedless : Heedless p.blocks) (ht : t.kind = .comment) : p.step env t = .ok p := by
  have hblock : t.kind ≠ .block := by simp [ht]
  by_cases hc : Compiles p.blocks
  · rw [step_eq_item hc (awaits_eq_false_of_kind hblock), item, ht]
  · exact step_dropped hc hheedless hblock

theorem run_comment (hheedless : Heedless p.blocks) (inner : List Char) (rest : List Segment) (line : Nat) :
    run env (tokensFrom line (⟨.comment, inner⟩ :: rest)) p =
      run env (tokensFrom (line + Lexer.newlines (raw ⟨.comment, inner⟩)) rest) p :=
  run_cons_ok (step_comment hheedless rfl)

theorem run_texts_dropped (hc : ¬ Compiles p.blocks) (hheedless : Heedless p.blocks) (s : List Char) (line : Nat) :
    run env (tokensFrom line (texts s)) p = .ok p := by
  by_cases hs : s = []
  · simp [hs]
  · rw [texts_of_ne_nil hs]
    exact run_cons_ok (step_dropped hc hheedless TokenKind.noConfusion)

end Progress

/-! ## A comment within a text -/

/-- A text that is split in two writes the same. -/
theorem Node.texts_append_sameOutput (a b : List Char) : SameOutput (texts (a ++ b)) (texts a ++ texts b) := by
  rw [SameOutput, renderAll_append, renderAll_texts, renderAll_texts, renderAll_texts, String.ofList_append]
  rfl

/-- A text with a comment in it is compiled side by side with the text. -/
theorem Progress.exists_run_comment (env : Environment) {L : Nat → Nat → Prop} (hL : ∀ n, L n n)
    (hheedless : Heedless p.blocks) (a b inner : List Char) (line : Nat) :
    ∃ q q', run env (tokensFrom line (texts (a ++ b))) p = .ok q ∧
      run env (tokensFrom line (texts a ++ ⟨.comment, inner⟩ :: texts b)) p = .ok q' ∧ q.Alike L "" q' := by
  have hself : p.Alike L "" p := .refl hL p
  rw [tokensFrom_append]
  by_cases hc : Compiles p.blocks
  · refine ⟨_, _, run_texts hc _ _, ?_, hself.append p.active (Node.texts_append_sameOutput a b)⟩
    let q : Progress := { p with nodes := p.nodes ++ Node.texts a }
    rw [run_append_ok (run_texts hc a line), run_comment (p := q) hheedless, run_texts (p := q) hc, List.append_assoc]
  · refine ⟨p, p, run_texts_dropped hc hheedless _ _, ?_, hself⟩
    rw [run_append_ok (run_texts_dropped hc hheedless a line), run_comment hheedless,
      run_texts_dropped hc hheedless]

/-! ## A comment within a template -/

section Insertion

variable {before after : List Segment} {a b : List Char} {nodes : List Node}

/-- Tokens of a template that compile, with a comment put within a text of theirs, compile to nodes that write the
same. -/
theorem outcome_with_comment
    (h : (start base).outcome env (tokensFrom 1 (before ++ (texts (a ++ b) ++ after))) none = .ok nodes)
    (hopen : ∀ w ∈ Waiting.openAfter (tokensFrom 1 before), w.opener.tagName ≠ "verbatim") (hafter : Canonical after)
    (inner : List Char) :
    ∃ nodes', Node.SameOutput nodes nodes' ∧ (start base).outcome env
      (tokensFrom 1 (before ++ (texts a ++ ⟨.comment, inner⟩ :: texts b ++ after))) none = .ok nodes' := by
  obtain ⟨last, hrun, -⟩ := bind_eq_ok_iff.mp h
  rw [tokensFrom_append, run_append] at hrun
  obtain ⟨p, hp, -⟩ := bind_eq_ok_iff.mp hrun
  obtain ⟨q, q', hq, hq', halike⟩ := exists_run_comment env (L := fun _ _ => True) (fun _ => trivial)
    (heedless_of_run hp hopen) a b inner (1 + Lexer.newlines (source before))
  -- what comes after is the same but for its lines
  have hends (line line' : Nat) (h : q.outcome env (tokensFrom line after) none = .ok nodes) :
      ∃ nodes', Node.SameOutput nodes nodes' ∧ q'.outcome env (tokensFrom line' after) none = .ok nodes' := by
    obtain ⟨hmoved, -⟩ := @Lexer.scan_moved (fun _ _ => True) (source after) line line' fun _ => trivial
    rw [Lexer.scan_source hafter, Lexer.scan_source hafter] at hmoved
    obtain ⟨nodes', hnodes', hwrites⟩ := (halike.outcome hmoved .none).exists_ok h
    exact ⟨nodes', Node.writesAfter_empty_iff.mp hwrites, hnodes'⟩
  rw [tokensFrom_append, outcome_append_ok hp, tokensFrom_append, outcome_append_ok hq] at h
  rw [tokensFrom_append, outcome_append_ok hp, tokensFrom_append, outcome_append_ok hq']
  exact hends _ _ h

end Insertion

/-- Between two parts of a template that compiles, outside of tags and of `verbatim` regions, there may be a comment.
The template compiles with it as well, and renders to the same. -/
theorem compile_with_comment (henv : env.StandardTagsOnly) {left right comment : String} {nodes : List Node}
    (h : env.compile base (left ++ right) = .ok nodes) (hcut : Lexer.CutsNoTag left right)
    (hverbatim : ∀ w ∈ Waiting.openAfter (Lexer.tokens left).1, w.opener.tagName ≠ "verbatim")
    (hlast : left.toList.getLast? ≠ some '\x7b') (hcomment : ¬ ['#', '\x7d'] <:+: comment.toList) :
    ∃ nodes', env.compile base (left ++ "\x7b#" ++ comment ++ "#\x7d" ++ right) = .ok nodes' ∧
      Node.renderAll nodes' = Node.renderAll nodes := by
  obtain ⟨hscan, -⟩ := body_of_compile_eq_ok henv h
  obtain ⟨before, a, b, after, hleft, hright, hwhole⟩ := hcut.exists_segments hscan
  rw [← source_texts a, ← source_append] at hleft
  rw [← source_texts b, ← source_append] at hright
  have hcommented : Canonical (before ++ texts a ++ ⟨.comment, comment.toList⟩ :: (texts b ++ after)) :=
    hwhole.take.insert hwhole.drop (isClean_comment hcomment) TokenKind.noConfusion (hleft ▸ hlast)
  have hopen : Waiting.openAfter (Lexer.tokens left).1 = Waiting.openAfter (tokensFrom 1 before) := by
    rw [tokens_of_source hwhole.take hleft, tokensFrom_append, Waiting.openAfter_append_texts]
  rw [hopen] at hverbatim
  rw [compile_eq_outcome henv, tokens_of_source hwhole (by simp [hleft, hright]), List.append_assoc] at h
  obtain ⟨nodes', hsame, hnodes'⟩ := outcome_with_comment h hverbatim
    (canonical_append_iff.mp hwhole.drop).2.1 comment.toList
  refine ⟨nodes', ?_, hsame⟩
  rw [compile_eq_outcome henv, tokens_of_source hcommented (by simp [hleft, hright, raw, Lexer.opener, Lexer.closer])]
  simpa using hnodes'

/-- Source up to a place within a text, in the body of a loop in the `else` branch of a condition. -/
def commentedLeft : String := "a\x7b% if x %\x7db\x7b% else %\x7d\x7b% for i in y %\x7d\x7b\x7b i \x7d\x7d c"

/-- The source after that place, with a `verbatim` region in it. -/
def commentedRight : String :=
  "d\n\x7b% endfor %\x7d\x7b% endif %\x7d\x7b% verbatim %\x7d\x7b\x7b e \x7d\x7d\x7b% endverbatim %\x7d"

/-- Opening and closing marks of other kinds, a quote, a line break and half a closing mark. -/
def crampedComment : String := " \x7b% verbatim %\x7d\"\n\x7d\x7d \x7b\x7b #"

/-- The text is split by a comment with all of these in it. -/
theorem compile_with_comment_cramped :
    ∃ nodes nodes', (Environment.standard .latest).compile [0, 1] (commentedLeft ++ commentedRight) = .ok nodes ∧
      (Environment.standard .latest).compile [0, 1]
          (commentedLeft ++ "\x7b#" ++ crampedComment ++ "#\x7d" ++ commentedRight) = .ok nodes' ∧
        Node.renderAll nodes' = Node.renderAll nodes := by
  have hcompiles : ((Environment.standard .latest).compile [0, 1] (commentedLeft ++ commentedRight)).isOk = true := by
    decide +kernel
  have hcut : Lexer.CutsNoTag commentedLeft commentedRight := by decide +kernel
  have hverbatim : ∀ w ∈ Waiting.openAfter (Lexer.tokens commentedLeft).1, w.opener.tagName ≠ "verbatim" := by
    decide +kernel
  have hlast : commentedLeft.toList.getLast? ≠ some '\x7b' := by decide +kernel
  have hcomment : ¬ ['#', '\x7d'] <:+: crampedComment.toList := by decide +kernel
  cases h : (Environment.standard .latest).compile [0, 1] (commentedLeft ++ commentedRight) with
  | error e =>
    rw [h] at hcompiles
    cases hcompiles
  | ok nodes =>
    obtain ⟨nodes', h', hrender⟩ :=
      compile_with_comment (Environment.standard_standardTagsOnly .latest) h hcut hverbatim hlast hcomment
    exact ⟨nodes, nodes', rfl, h', hrender⟩

end TextTemplate
