import TextTemplate.Proofs.Compile.WellNested
import TextTemplate.Proofs.Token.Prefix

/-!
# Templates that are cut short

Which blocks are open after some tokens, and what the innermost one waits for, can be told from the names of
the block tags alone. A template that compiles is compiled without failure up to any place where it is cut: all
that can go wrong is that the cut leaves a delimiter or a block open.
-/

namespace TextTemplate

open Grammar Progress

/-- A block tag that is open, and the block tags that it waits for. -/
structure Waiting where
  opener : Token
  awaited : List String
  deriving DecidableEq, Repr

namespace Waiting

/-- The tags that a block waits for when it has been opened; tags of other names open no block. -/
def awaitedBy : String → List String
  | "if" => ["elif", "else", "endif"]
  | "for" => ["empty", "endfor"]
  | "with" => ["endwith"]
  | "ifequal" => ["else", "endifequal"]
  | "ifnotequal" => ["else", "endifnotequal"]
  | "spaceless" => ["endspaceless"]
  | "filter" => ["endfilter"]
  | "comment" => ["endcomment"]
  | "verbatim" => ["endverbatim"]
  | _ => []

/-- The block that a token opens, if any. -/
def opened (t : Token) : List Waiting :=
  if awaitedBy t.tagName = [] then [] else [⟨t, awaitedBy t.tagName⟩]

/-- The open blocks after one more token, innermost first. An `else` or `empty` that a block waits for leaves it
waiting for its end tag; the end tag closes it. Nothing is opened inside `comment` and `verbatim`. -/
def after (blocks : List Waiting) (t : Token) : List Waiting :=
  if t.kind = .block then
    match blocks with
    | [] => opened t
    | w :: outer =>
      if t.tagName ∈ w.awaited then
        if t.tagName = "elif" then w :: outer
        else if t.tagName = "else" ∨ t.tagName = "empty" then
          ⟨w.opener, ["end" ++ w.opener.tagName]⟩ :: outer
        else outer
      else if w.opener.tagName = "comment" ∨ w.opener.tagName = "verbatim" then w :: outer
      else opened t ++ w :: outer
  else blocks

/-- The blocks that are open after some tokens, innermost first. -/
def openAfter (tokens : List Token) : List Waiting := tokens.foldl after []

end Waiting

/-! ## The stages of a block -/

namespace Stage

/-- The directive whose block is at the stage. -/
def directive : Stage → Directive
  | branch .. | otherwise .. => .conditional
  | loopBody .. | loopEmpty .. => .loop
  | bindingBody .. => .binding
  | whenTrue false .. | whenFalse false .. => .equality
  | whenTrue true .. | whenFalse true .. => .inequality
  | spacelessBody => .spaceless
  | filteredBody .. => .filtered
  | skipped => .comment
  | verbatim .. => .verbatim

theorem isOpaque_iff (stage : Stage) :
    stage.isOpaque = true ↔ stage.directive.name = "comment" ∨ stage.directive.name = "verbatim" := by
  cases stage with
  | whenTrue negated | whenFalse negated => cases negated <;> simp [isOpaque, directive, Directive.name]
  | _ => simp [isOpaque, directive, Directive.name]

/-- What is kept from the compiler leaves a block waiting for the same. -/
theorem keep_same (stage : Stage) (t : Token) :
    (stage.keep t).directive = stage.directive ∧ (stage.keep t).awaited = stage.awaited := by
  cases stage <;> exact ⟨rfl, rfl⟩

/-- A block goes on after `elif` as before, and after `else` or `empty` up to its end tag. -/
theorem resume_again {lookup : FilterLookup} {nodes : List Node} {t : Token} {stage next : Stage}
    (hmem : t.tagName ∈ stage.awaited) (h : stage.resume lookup nodes t = .ok (.again next)) :
    next.directive = stage.directive ∧
      (t.tagName = "elif" ∧ next.awaited = stage.awaited ∨
        t.tagName ≠ "elif" ∧ (t.tagName = "else" ∨ t.tagName = "empty") ∧
          next.awaited = ["end" ++ stage.directive.name]) := by
  cases stage with
  | branch before c =>
    simp only [resume] at h
    split_ifs at h with helif helse hcontent
    · split at h
      · obtain rfl : _ = next := by simpa using h
        exact ⟨rfl, .inl ⟨helif, rfl⟩⟩
      · cases h
    · obtain rfl : _ = next := by simpa using h
      exact ⟨rfl, .inr ⟨helif, .inl helse, rfl⟩⟩
    · cases h
  | loopBody header sequence =>
    simp only [resume] at h
    split_ifs at h with hempty
    · obtain rfl : _ = next := by simpa using h
      exact ⟨rfl, .inr ⟨by simp [hempty], .inr hempty, rfl⟩⟩
    · cases h
  | whenTrue negated left right =>
    simp only [resume] at h
    split_ifs at h with helse
    · obtain rfl : _ = next := by simpa using h
      cases negated <;> exact ⟨rfl, .inr ⟨by simp [helse], .inl helse, rfl⟩⟩
    · cases h
  | _ => simp [resume] at h

/-- Only its end tag closes a block. -/
theorem resume_closed {lookup : FilterLookup} {nodes : List Node} {t : Token} {stage : Stage}
    {node : Option Node} (hmem : t.tagName ∈ stage.awaited)
    (h : stage.resume lookup nodes t = .ok (.closed node)) :
    t.tagName ≠ "elif" ∧ t.tagName ≠ "else" ∧ t.tagName ≠ "empty" := by
  cases stage with
  | branch before c =>
    simp only [resume] at h
    split_ifs at h with helif helse hcontent
    · split at h <;> cases h
    · cases h
    · simp_all [awaited]
  | loopBody header sequence =>
    simp only [resume] at h
    split_ifs at h with hempty
    · cases h
    · simp_all [awaited]
  | whenTrue negated left right =>
    simp only [resume] at h
    split_ifs at h with helse
    · cases h
    · cases negated <;> simp_all [awaited]
  | whenFalse negated => cases negated <;> simp_all [awaited]
  | _ => simp_all [awaited]

end Stage

namespace Directive

variable {env : Environment} {active : List Nat} {content : String} {d : Directive}

/-- A directive that opens a block starts at its first stage. -/
theorem opening_block {stage : Stage} (h : d.opening env active content = .ok (.block stage)) :
    stage.directive = d ∧ stage.awaited = Waiting.awaitedBy d.name ∧ Waiting.awaitedBy d.name ≠ [] := by
  cases d with
  | comment | verbatim | spaceless => cases h; exact ⟨rfl, rfl, by decide⟩
  | load | firstOf | symbol =>
    obtain ⟨_, -, h⟩ := bind_eq_ok_iff.mp h
    cases h
  | conditional | loop | binding | equality | inequality | filtered =>
    obtain ⟨_, -, h⟩ := bind_eq_ok_iff.mp h
    cases h
    exact ⟨rfl, rfl, by decide⟩

/-- A directive that is complete at once opens no block. -/
theorem opening_leaf {node : Option Node} {active' : List Nat}
    (h : d.opening env active content = .ok (.leaf node active')) : Waiting.awaitedBy d.name = [] := by
  cases d with
  | load | firstOf | symbol => decide
  | comment | verbatim | spaceless => cases h
  | conditional | loop | binding | equality | inequality | filtered =>
    obtain ⟨_, -, h⟩ := bind_eq_ok_iff.mp h
    cases h

end Directive

/-! ## Open blocks by their names -/

namespace OpenBlock

/-- What the names tell of a block on the stack. -/
def waiting (b : OpenBlock) : Waiting := ⟨b.opener, b.stage.awaited⟩

/-- The opening tag of a block is that of its directive. -/
def IsNamed (b : OpenBlock) : Prop := b.opener.tagName = b.stage.directive.name

end OpenBlock

namespace Progress

variable {env : Environment} {p p' : Progress} {t : Token}

/-- Opening a block tag shows in the names. -/
theorem enter_openBlocks {d : Directive} (hd : t.tagName = d.name) (h : p.enter env d t = .ok p')
    (hnamed : ∀ b ∈ p.blocks, b.IsNamed) : (∀ b ∈ p'.blocks, b.IsNamed) ∧
      p'.blocks.map OpenBlock.waiting = Waiting.opened t ++ p.blocks.map OpenBlock.waiting := by
  unfold enter at h
  rw [Waiting.opened, hd]
  split at h
  · cases h
  · rename_i node active hopening
    cases h
    rw [if_pos (Directive.opening_leaf hopening)]
    exact ⟨hnamed, rfl⟩
  · rename_i stage hopening
    cases h
    obtain ⟨hdirective, hawaited, hne⟩ := Directive.opening_block hopening
    rw [if_neg hne, ← hawaited]
    refine ⟨List.forall_mem_cons.mpr ⟨?_, hnamed⟩, rfl⟩
    rw [OpenBlock.IsNamed, hdirective]
    exact hd

/-- A block tag that compiles as an item is one that is entered. -/
theorem enter_of_item {stop : List String} (hk : t.kind = .block) (h : p.item env stop t = .ok p') :
    ∃ d, env.directive? p.active t.tagName = some d ∧ p.enter env d t = .ok p' := by
  simp only [item, hk] at h
  split_ifs at h with hname hroom
  · split at h <;> cases h
  · split at h
    · cases h
    · exact ⟨_, ‹_›, h⟩

/-- Other tokens leave the blocks as they are. -/
theorem item_blocks {stop : List String} (hk : t.kind ≠ .block) (h : p.item env stop t = .ok p') :
    p'.blocks = p.blocks := by
  unfold item at h
  split at h
  · cases h
    rfl
  · split_ifs at h
    split at h
    · cases h
      rfl
    · cases h
  · cases h
    rfl
  · contradiction

/-- Compiling a token that ends nothing shows in the names only if it opens a block. -/
theorem item_openBlocks {stop : List String} (h : p.item env stop t = .ok p')
    (hnamed : ∀ b ∈ p.blocks, b.IsNamed) : (∀ b ∈ p'.blocks, b.IsNamed) ∧
      p'.blocks.map OpenBlock.waiting =
        (if t.kind = .block then Waiting.opened t else []) ++ p.blocks.map OpenBlock.waiting := by
  by_cases hk : t.kind = .block
  · obtain ⟨d, hdirective, henter⟩ := enter_of_item hk h
    rw [if_pos hk]
    exact enter_openBlocks (Environment.directive?_name hdirective).symm henter hnamed
  · rw [if_neg hk, item_blocks hk h]
    exact ⟨hnamed, rfl⟩

/-- Compiling a terminator changes the innermost block as the names say. -/
theorem awaited_openBlocks {a : List Nat} {nodes : List Node} {b : OpenBlock} {outer : List OpenBlock}
    (ht : awaits (b :: outer) t = true) (h : step env ⟨a, nodes, b :: outer⟩ t = .ok p')
    (hnamed : ∀ c ∈ b :: outer, c.IsNamed) : (∀ c ∈ p'.blocks, c.IsNamed) ∧
      p'.blocks.map OpenBlock.waiting = Waiting.after ((b :: outer).map OpenBlock.waiting) t := by
  obtain ⟨hb, houter⟩ := List.forall_mem_cons.mp hnamed
  obtain ⟨hk, hmem⟩ : t.kind = .block ∧ t.tagName ∈ b.stage.awaited := by simpa [awaits] using ht
  rw [step_awaited env a nodes b outer (by simp [Token.isBlock, hk]) hmem] at h
  have hafter : Waiting.after ((b :: outer).map OpenBlock.waiting) t =
      if t.tagName = "elif" then b.waiting :: outer.map OpenBlock.waiting
      else if t.tagName = "else" ∨ t.tagName = "empty" then
        ⟨b.opener, ["end" ++ b.opener.tagName]⟩ :: outer.map OpenBlock.waiting
      else outer.map OpenBlock.waiting := by
    simp [Waiting.after, OpenBlock.waiting, hk, hmem]
  rw [hafter]
  cases hresume : b.stage.resume (env.filterLookup a) nodes t with
  | error e =>
    rw [hresume] at h
    cases h
  | ok resumed =>
    rw [hresume] at h
    cases resumed with
    | again next =>
      cases h
      obtain ⟨hdirective, hnext⟩ := Stage.resume_again hmem hresume
      refine ⟨List.forall_mem_cons.mpr ⟨?_, houter⟩, ?_⟩
      · rw [OpenBlock.IsNamed, hdirective]
        exact hb
      · rcases hnext with ⟨helif, hsame⟩ | ⟨helif, helse, hend⟩
        · rw [if_pos helif, List.map_cons, OpenBlock.waiting, hsame]
          rfl
        · rw [if_neg helif, if_pos helse, List.map_cons, OpenBlock.waiting, hend, ← hb]
    | closed node =>
      cases h
      obtain ⟨helif, helse, hempty⟩ := Stage.resume_closed hmem hresume
      rw [if_neg helif, if_neg (by simp [helse, hempty])]
      exact ⟨houter, rfl⟩

/-- Compiling one token changes the open blocks as the names say. -/
theorem step_openBlocks (h : p.step env t = .ok p') (hnamed : ∀ b ∈ p.blocks, b.IsNamed) :
    (∀ b ∈ p'.blocks, b.IsNamed) ∧
      p'.blocks.map OpenBlock.waiting = Waiting.after (p.blocks.map OpenBlock.waiting) t := by
  rcases p with ⟨a, nodes, _ | ⟨b, outer⟩⟩
  · have hitem : item env ⟨a, nodes, []⟩ [] t = .ok p' := h
    obtain ⟨hnamed', hmap⟩ := item_openBlocks hitem hnamed
    refine ⟨hnamed', hmap.trans ?_⟩
    by_cases hk : t.kind = .block <;> simp [Waiting.after, hk]
  cases ht : awaits (b :: outer) t with
  | true => exact awaited_openBlocks ht h hnamed
  | false =>
    obtain ⟨hb, houter⟩ := List.forall_mem_cons.mp hnamed
    have hnot : t.kind = .block → t.tagName ∉ b.waiting.awaited := by
      intro hk hmem
      have hmem' : t.tagName ∈ b.stage.awaited := hmem
      simp [awaits, hk, hmem'] at ht
    have hkept := b.stage.isOpaque_iff
    rw [← hb] at hkept
    simp only [step, ht, Bool.false_eq_true, if_false] at h
    cases hkeeps : b.stage.isOpaque with
    | true =>
      simp only [hkeeps, if_true] at h
      cases h
      obtain ⟨hdirective, hsame⟩ := b.stage.keep_same t
      refine ⟨List.forall_mem_cons.mpr ⟨?_, houter⟩, ?_⟩
      · rw [OpenBlock.IsNamed, hdirective]
        exact hb
      · have hname : b.waiting.opener.tagName = "comment" ∨ b.waiting.opener.tagName = "verbatim" :=
          hkept.mp hkeeps
        rw [List.map_cons, OpenBlock.waiting, hsame, List.map_cons, Waiting.after]
        split_ifs with hk
        · exact absurd ‹_› (hnot hk)
        · exact absurd ‹_› (hnot hk)
        · exact absurd ‹_› (hnot hk)
        · rfl
        · rfl
    | false =>
      simp only [hkeeps, Bool.false_eq_true, if_false] at h
      obtain ⟨hnamed', hmap⟩ := item_openBlocks h hnamed
      have hname : ¬ (b.waiting.opener.tagName = "comment" ∨ b.waiting.opener.tagName = "verbatim") :=
        fun hname => by simp [hkept.mpr hname] at hkeeps
      refine ⟨hnamed', hmap.trans ?_⟩
      rw [List.map_cons, Waiting.after]
      split_ifs with hk
      · exact absurd ‹_› (hnot hk)
      · exact absurd ‹_› (hnot hk)
      · exact absurd ‹_› (hnot hk)
      · rfl
      · rfl

/-- What is open after compiling some tokens is what is open by their names. -/
theorem run_openBlocks {tokens : List Token} (h : run env tokens p = .ok p')
    (hnamed : ∀ b ∈ p.blocks, b.IsNamed) :
    p'.blocks.map OpenBlock.waiting = tokens.foldl Waiting.after (p.blocks.map OpenBlock.waiting) := by
  induction tokens generalizing p with
  | nil => cases h; rfl
  | cons t tokens ih =>
    obtain ⟨p₁, hstep, hrun⟩ := bind_eq_ok_iff.mp (run_cons env t tokens p ▸ h)
    obtain ⟨hnamed₁, hmap⟩ := step_openBlocks hstep hnamed
    rw [List.foldl_cons, ← hmap]
    exact ih hrun hnamed₁

/-- Literal text compiles wherever it stands. -/
theorem step_text (p : Progress) (ht : t.kind = .text) : ∃ p', p.step env t = .ok p' := by
  rcases p with ⟨active, nodes, _ | ⟨b, outer⟩⟩
  · simp [step, item, ht]
  · have hawaits : awaits (b :: outer) t = false := awaits_eq_false_of_kind (by simp [ht])
    cases hb : b.stage.isOpaque <;> simp [step, hawaits, hb, item, ht]

end Progress

/-- What is left of a template that compiles, cut anywhere, is compiled without failure up to the cut. So it
compiles, or the cut is inside a delimiter that is then unclosed, or the innermost block that is open at the
cut is unclosed and waits for just the tags that it waits for there. -/
theorem compile_prefix {env : Environment} (henv : env.StandardTagsOnly) {base : List Nat}
    {source cut : String} {nodes : List Node} (h : env.compile base source = .ok nodes)
    (hcut : cut.toList <+: source.toList) :
    match (Lexer.tokens cut).2, Waiting.openAfter (Lexer.tokens cut).1 with
    | some e, _ => env.compile base cut = .error e ∧ ∃ kind ≠ .text, ∃ line, e = Lexer.unclosed kind line
    | none, [] => ∃ nodes', env.compile base cut = .ok nodes'
    | none, w :: _ => env.compile base cut =
        .error ⟨.unclosedTag (some w.opener.tagName) w.awaited, some w.opener.line⟩ := by
  obtain ⟨-, active, hbody⟩ := body_of_compile_eq_ok henv h
  obtain ⟨r, hr⟩ := hcut
  obtain ⟨common, last, hscan, ⟨later, hlater⟩, hlast⟩ := Lexer.scan_extend cut.toList r 1
  have hwhole : run env (common ++ later) (start base) = .ok ⟨active, nodes, []⟩ := by
    rw [hlater, hr]
    exact body_runs env _ hbody [] [] (by simp) (by simp [Compiles])
  -- the tokens up to the cut compile, and so does a literal text that the cut ends early
  obtain ⟨p, hp, -⟩ := bind_eq_ok_iff.mp (run_append env common later (start base) ▸ hwhole)
  obtain ⟨p', hp'⟩ : ∃ p', run env (Lexer.tokens cut).1 (start base) = .ok p' := by
    rw [Lexer.tokens, hscan, run_append_ok hp]
    rcases hlast with rfl | ⟨t, rfl, ht⟩
    · exact ⟨p, rfl⟩
    · obtain ⟨p', hstep⟩ := step_text p ht
      exact ⟨p', run_cons_ok hstep⟩
  have hopen : p'.blocks.map OpenBlock.waiting = Waiting.openAfter (Lexer.tokens cut).1 :=
    run_openBlocks hp' (by simp [start])
  have houtcome : env.compile base cut = p'.finish (Lexer.tokens cut).2 := by
    rw [compile_eq_outcome henv, outcome, hp']
    rfl
  rw [houtcome, ← hopen]
  cases hfault : (Lexer.tokens cut).2 with
  | some e =>
    obtain ⟨rest, hrest⟩ := Lexer.scan_partitions cut.toList 1
    obtain ⟨kind, hkind, inside, -, -, he⟩ := (hrest.fault_iff e).mp hfault
    exact ⟨rfl, kind, hkind, _, he⟩
  | none =>
    rcases p' with ⟨active', nodes', _ | ⟨b, outer⟩⟩
    · exact ⟨nodes', rfl⟩
    · rfl

/-- Source with an `else` branch. -/
def elseSource : String := "a\x7b% if x %\x7db\x7b% else %\x7d\x7b% for i in y %\x7dc\x7b% endfor %\x7d\x7b% endif %\x7d"

/-- The same, cut after the brace of the tag in that branch. -/
def elseSourceCut : String := "a\x7b% if x %\x7db\x7b% else %\x7d\x7b"

/-- The brace is literal text, and the `if` tag waits for its end tag only. -/
theorem compile_prefix_else :
    (∃ nodes, (Environment.standard .latest).compile [0, 1] elseSource = .ok nodes) ∧
      elseSourceCut.toList <+: elseSource.toList ∧
      (Environment.standard .latest).compile [0, 1] elseSourceCut =
        .error ⟨.unclosedTag (some "if") ["endif"], some 1⟩ := by
  have hcompiles : ((Environment.standard .latest).compile [0, 1] elseSource).isOk = true := by decide +kernel
  have hcut : elseSourceCut.toList <+: elseSource.toList := by decide +kernel
  have hfault : (Lexer.tokens elseSourceCut).2 = none := by decide +kernel
  have hopen : Waiting.openAfter (Lexer.tokens elseSourceCut).1 =
      [⟨⟨.block, "if x", 1, "\x7b% if x %\x7d"⟩, ["endif"]⟩] := by decide +kernel
  cases h : (Environment.standard .latest).compile [0, 1] elseSource with
  | error e =>
    rw [h] at hcompiles
    cases hcompiles
  | ok nodes =>
    have hresult := compile_prefix (Environment.standard_standardTagsOnly .latest) h hcut
    rw [hfault, hopen] at hresult
    exact ⟨⟨nodes, rfl⟩, hcut, hresult⟩

end TextTemplate
