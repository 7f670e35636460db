import TextTemplate.Proofs.Compile.Activation
import TextTemplate.Proofs.Compile.Rebasing
import TextTemplate.Proofs.Compile.Sections
import TextTemplate.Proofs.Compile.Surroundings
import TextTemplate.Proofs.Node.Branches

/-!
# `elif` and nested `if`

An `elif` branch can be written as an `if` tag in the `else` branch of the branch before it, with an end tag of its own.
Wherever a block stands in a template, both ways to write it compile to branches with the same conditions and bodies,
unless the nested `if` tags are too many to be open at once. Either way the same conditions are evaluated in the same
order, and the same branch is rendered.
-/

namespace TextTemplate

open Progress Segment Node

variable {env : Environment} {base a : List Nat} {d nodes : List Node} {blocks outer : List OpenBlock}
  {before : List (Condition × List Node)} {c : Condition} {o t : Token} {p : Progress}

/-! ## Blocks in source -/

/-- A tag in source, and the body after it, which is closed in itself. -/
structure BranchSource (name : String) where
  opener : Segment
  body : List Segment
  named : (opener.token 1).isBlock name = true
  closed : Waiting.Closes [] (onOneLine body)

namespace BranchSource

variable {name : String}

def header (b : BranchSource name) : String := (b.opener.token 1).tagContent

def segments (b : BranchSource name) : List Segment := b.opener :: b.body

/-- An `elif` branch as an `if` tag in the `else` branch of the branch before, up to where its end tag is due. -/
def inElse (b : BranchSource "elif") : List Segment := tag "else" "" :: tag "if" b.header :: b.body

/-- The tag that an `elif` tag becomes. -/
theorem heads_if (b : BranchSource "elif") : ((tag "if" b.header).token 1).Heads "if" b.header :=
  tag_token (by decide) (by simpa [header, Token.tagContent] using Text.trimmed_trim _) 1

end BranchSource

/-- An `if` block in source. -/
structure ConditionalSource where
  first : BranchSource "if"
  elifs : List (BranchSource "elif")
  otherwise : Option (BranchSource "else")
  endTag : Segment
  ends : (endTag.token 1).isBlock "endif" = true

namespace ConditionalSource

/-- What comes after the branches with conditions. -/
def ending (s : ConditionalSource) : List Segment :=
  s.otherwise.toList.flatMap BranchSource.segments ++ [s.endTag]

def segments (s : ConditionalSource) : List Segment :=
  s.first.segments ++ (s.elifs.flatMap BranchSource.segments ++ s.ending)

/-- The block with each `elif` branch in the `else` branch of the branch before. -/
def nested (s : ConditionalSource) : List Segment :=
  s.first.segments ++
    (s.elifs.flatMap BranchSource.inElse ++ (s.ending ++ List.replicate s.elifs.length (tag "endif" "")))

end ConditionalSource

/-! ## Tags of a block -/

theorem HeaderReader.condition_of_elif {lookup : FilterLookup} {content : String}
    (h : HeaderReader.condition lookup "elif" content = .ok c) :
    HeaderReader.condition lookup "if" content = .ok c := by
  unfold condition at h ⊢
  split_ifs at h ⊢
  · cases h
  · exact h

namespace Progress

/-- An `if` tag is waited for by no block. -/
theorem awaits_if (ht : t.isBlock "if") (blocks : List OpenBlock) : awaits blocks t = false := by
  obtain ⟨hkind, hname⟩ := Token.isBlock_iff.mp ht
  cases blocks with
  | nil => rfl
  | cons b outer =>
    have hnot : "if" ∉ b.stage.awaited := fun hmem =>
      absurd (b.stage.awaited_subset hmem) (by decide : "if" ∉ Stage.terminators)
    simpa [awaits, hkind, hname] using hnot

/-- An `if` tag that compiles opens a block with the condition in its header. -/
theorem step_if (ht : t.isBlock "if") (hc : Compiles blocks) (h : step env ⟨a, d, blocks⟩ t = .ok p) :
    ∃ c, env.directive? a "if" = some .conditional ∧
      HeaderReader.condition (env.filterLookup a) "if" t.tagContent = .ok c ∧
      p = ⟨a, [], ⟨t, .branch [] c, d⟩ :: blocks⟩ := by
  obtain ⟨hkind, hname⟩ := Token.isBlock_iff.mp ht
  rw [step_eq_item hc (awaits_if ht blocks)] at h
  obtain ⟨k, hk, henter⟩ := enter_of_item hkind h
  have hdirective : k.name = "if" := (Environment.directive?_name hk).trans hname
  obtain rfl : k = .conditional := by
    cases k
    case conditional => rfl
    all_goals exact absurd hdirective (by decide)
  cases hread : HeaderReader.condition (env.filterLookup a) "if" t.tagContent with
  | error e =>
    rw [enter, Directive.opening, hread] at henter
    cases henter
  | ok c =>
    rw [enter, Directive.opening, hread] at henter
    cases henter
    exact ⟨c, hname ▸ hk, rfl, rfl⟩

/-- Wherever the tag is known it does the same, unless too many tags are open. -/
theorem reaches_if (ht : t.isBlock "if") (hc : Compiles blocks) (hif : env.directive? a "if" = some .conditional)
    (hread : HeaderReader.condition (env.filterLookup a) "if" t.tagContent = .ok c) :
    Reaches True ⟨a, [], ⟨t, .branch [] c, d⟩ :: blocks⟩ (step env ⟨a, d, blocks⟩ t) := by
  obtain ⟨hkind, hname⟩ := Token.isBlock_iff.mp ht
  have hk : env.directive? a t.tagName = some .conditional := hname.symm ▸ hif
  by_cases hroom : blocks.length < Environment.maxOpenTags
  · have hopening : Directive.conditional.opening env a t.tagContent = .ok (.block (.branch [] c)) := by
      rw [Directive.opening, hread]
      rfl
    rw [Grammar.step_opens ⟨hkind, hk⟩ hc hroom hopening]
    exact .reached
  · rw [step_eq_item hc (awaits_if ht blocks), item_eq_error (p := ⟨a, d, blocks⟩) hkind hk (Nat.le_of_not_lt hroom)]
    exact .tooDeep trivial _

section Terminators

variable (env : Environment) (a : List Nat) (d nodes : List Node) (outer : List OpenBlock)
  (before : List (Condition × List Node)) (c : Condition) (o : Token)

theorem step_elif (ht : t.isBlock "elif") : step env ⟨a, nodes, ⟨o, .branch before c, d⟩ :: outer⟩ t =
    match HeaderReader.condition (env.filterLookup a) "elif" t.tagContent with
    | .ok c' => .ok ⟨a, [], ⟨o, .branch (before ++ [(c, nodes)]) c', d⟩ :: outer⟩
    | .error e => .error (e.atLine t.line) := by
  rw [step_awaited env a nodes _ outer ht (by simp [Stage.awaited])]
  simp only [Stage.resume, (Token.isBlock_iff.mp ht).2, if_true]
  cases HeaderReader.condition (env.filterLookup a) "elif" t.tagContent <;> rfl

theorem step_else (ht : t.isBlock "else") : step env ⟨a, nodes, ⟨o, .branch before c, d⟩ :: outer⟩ t =
    if t.tagContent = "" then .ok ⟨a, [], ⟨o, .otherwise (before ++ [(c, nodes)]), d⟩ :: outer⟩
    else .error ⟨.header (.noArgumentsTaken "else"), some t.line⟩ := by
  have helif : "else" ≠ "elif" := by decide
  rw [step_awaited env a nodes _ outer ht (by simp [Stage.awaited])]
  simp only [Stage.resume, (Token.isBlock_iff.mp ht).2, if_neg helif, if_true]
  split_ifs <;> rfl

theorem step_endif (ht : t.isBlock "endif") : step env ⟨a, nodes, ⟨o, .branch before c, d⟩ :: outer⟩ t =
    .ok ⟨a, d ++ [.choice (before ++ [(c, nodes)]) none], outer⟩ := by
  rw [step_awaited env a nodes _ outer ht (by simp [Stage.awaited])]
  simp [Stage.resume, (Token.isBlock_iff.mp ht).2]

theorem step_endif_otherwise (ht : t.isBlock "endif") :
    step env ⟨a, nodes, ⟨o, .otherwise before, d⟩ :: outer⟩ t = .ok ⟨a, d ++ [.choice before (some nodes)], outer⟩ := by
  rw [step_awaited env a nodes _ outer ht (by simp [Stage.awaited])]
  rfl

end Terminators

/-- A body that is compiled in a block is compiled in the same way in any other. -/
theorem run_body_inBlock {tokens : List Token} (hclosed : Waiting.Closes [] tokens) {b : OpenBlock}
    (hc : b.stage.isOpaque = false) (h : run env tokens ⟨a, [], b :: outer⟩ = .ok p) :
    p = ⟨p.active, p.nodes, b :: outer⟩ ∧ ∀ b' outer', b'.stage.isOpaque = false →
      Reaches True ⟨p.active, p.nodes, b' :: outer'⟩ (run env tokens ⟨a, [], b' :: outer'⟩) := by
  obtain ⟨hblocks, hother⟩ := run_body_rebased hclosed (by simpa [Compiles] using hc) h
  refine ⟨by rw [← hblocks], fun b' outer' hc' => ?_⟩
  exact (hother (b' :: outer') (by simpa [Compiles] using hc')).imp fun _ => trivial

end Progress

/-! ## Branches -/

/-- A body compiles to the nodes where it stands. -/
def BodyCompiled (env : Environment) (body : List Segment) (nodes : List Node) : Prop :=
  ∃ a a' blocks, run env (onOneLine body) ⟨a, [], blocks⟩ = .ok ⟨a', nodes, blocks⟩

/-- A branch compiles to the condition in its header and the nodes of its body. -/
def BranchSource.Compiled (env : Environment) {name : String} (b : BranchSource name)
    (branch : Condition × List Node) : Prop :=
  (∃ a, HeaderReader.condition (env.filterLookup a) name b.header = .ok branch.1) ∧ BodyCompiled env b.body branch.2

/-- An `elif` branch completes the branch before it, and does so as well where it is nested in its `else` branch. -/
theorem BranchSource.run_elif (b : BranchSource "elif") (hif : env.directive? a "if" = some .conditional)
    (h : run env (onOneLine b.segments) ⟨a, nodes, ⟨o, .branch before c, d⟩ :: outer⟩ = .ok p) :
    ∃ c', p = ⟨p.active, p.nodes, ⟨o, .branch (before ++ [(c, nodes)]) c', d⟩ :: outer⟩ ∧
      b.Compiled env (c', p.nodes) ∧
      ∀ o' d' outer', Reaches True ⟨p.active, p.nodes, ⟨(tag "if" b.header).token 1, .branch [] c', []⟩ ::
          ⟨o', .otherwise [(c, nodes)], d'⟩ :: outer'⟩
        (run env (onOneLine b.inElse) ⟨a, nodes, ⟨o', .branch [] c, d'⟩ :: outer'⟩) := by
  have hstep := step_elif env a d nodes outer before c o b.named
  rw [segments, onOneLine_cons, run_cons, hstep, ← header] at h
  cases hread : HeaderReader.condition (env.filterLookup a) "elif" b.header with
  | error e =>
    rw [hread] at h
    cases h
  | ok c' =>
    rw [hread] at h
    have hbody : run env (onOneLine b.body) ⟨a, [], ⟨o, .branch (before ++ [(c, nodes)]) c', d⟩ :: outer⟩ = .ok p := h
    obtain ⟨hp, hother⟩ := run_body_inBlock b.closed rfl hbody
    refine ⟨c', hp, ⟨⟨a, hread⟩, a, p.active, _, hp ▸ hbody⟩, fun o' d' outer' => ?_⟩
    have helse : step env ⟨a, nodes, ⟨o', .branch [] c, d'⟩ :: outer'⟩ ((tag "else" "").token 1) =
        .ok ⟨a, [], ⟨o', .otherwise [(c, nodes)], d'⟩ :: outer'⟩ := by
      have hheads := heads_bare (by decide : IsTagName "else") 1
      rw [step_else env a d' nodes outer' [] c o' hheads.isBlock, if_pos hheads.tagContent, List.nil_append]
    have hread' :
        HeaderReader.condition (env.filterLookup a) "if" ((tag "if" b.header).token 1).tagContent = .ok c' := by
      rw [b.heads_if.tagContent]
      exact HeaderReader.condition_of_elif hread
    rw [inElse, onOneLine_cons, run_cons_ok helse]
    exact (reaches_if b.heads_if.isBlock (by simp [Compiles, Stage.isOpaque]) hif hread').cons (hother _ _ rfl)

namespace ConditionalSource

/-- A block compiles to branches and an `else` branch. -/
structure Compiled (env : Environment) (s : ConditionalSource) (first : Condition × List Node)
    (more : List (Condition × List Node)) (otherwise : Option (List Node)) : Prop where
  first : s.first.Compiled env first
  elifs : List.Forall₂ (BranchSource.Compiled env) s.elifs more
  otherwise : Option.Rel (fun b => BodyCompiled env b.body) s.otherwise otherwise

/-- The end of a block completes it, and does so as well where no branches stand before its last one. -/
theorem run_ending (s : ConditionalSource)
    (h : run env (onOneLine s.ending) ⟨a, nodes, ⟨o, .branch before c, d⟩ :: outer⟩ = .ok p) :
    ∃ other, p = ⟨p.active, d ++ [.choice (before ++ [(c, nodes)]) other], outer⟩ ∧
      Option.Rel (fun b => BodyCompiled env b.body) s.otherwise other ∧
      ∀ o' d' outer', Reaches True ⟨p.active, d' ++ [.choice [(c, nodes)] other], outer'⟩
        (run env (onOneLine s.ending) ⟨a, nodes, ⟨o', .branch [] c, d'⟩ :: outer'⟩) := by
  have hlast (a : List Nat) (nodes d : List Node) (branches : List (Condition × List Node)) (o : Token)
      (outer : List OpenBlock) : run env [s.endTag.token 1] ⟨a, nodes, ⟨o, .otherwise branches, d⟩ :: outer⟩ =
        .ok ⟨a, d ++ [.choice branches (some nodes)], outer⟩ :=
    run_cons_ok (step_endif_otherwise env a d nodes outer branches o s.ends)
  cases hotherwise : s.otherwise with
  | none =>
    have hending : onOneLine s.ending = [s.endTag.token 1] := by simp [ending, hotherwise]
    have hend (d : List Node) (before : List (Condition × List Node)) (o : Token) (outer : List OpenBlock) :
        run env [s.endTag.token 1] ⟨a, nodes, ⟨o, .branch before c, d⟩ :: outer⟩ =
          .ok ⟨a, d ++ [.choice (before ++ [(c, nodes)]) none], outer⟩ :=
      run_cons_ok (step_endif env a d nodes outer before c o s.ends)
    rw [hending, hend] at h
    cases h
    refine ⟨none, rfl, .none, fun o' d' outer' => ?_⟩
    rw [hending, hend]
    exact .reached
  | some b =>
    have hending : onOneLine s.ending = b.opener.token 1 :: (onOneLine b.body ++ [s.endTag.token 1]) := by
      simp [ending, hotherwise, BranchSource.segments]
    by_cases hempty : (b.opener.token 1).tagContent = ""
    · have helse (d : List Node) (before : List (Condition × List Node)) (o : Token) (outer : List OpenBlock) :
          step env ⟨a, nodes, ⟨o, .branch before c, d⟩ :: outer⟩ (b.opener.token 1) =
            .ok ⟨a, [], ⟨o, .otherwise (before ++ [(c, nodes)]), d⟩ :: outer⟩ := by
        rw [step_else env a d nodes outer before c o b.named, if_pos hempty]
      rw [hending, run_cons_ok (helse _ _ _ _), run_append] at h
      obtain ⟨p₁, hbody, h⟩ := bind_eq_ok_iff.mp h
      obtain ⟨hp₁, hother⟩ := run_body_inBlock b.closed rfl hbody
      rw [hp₁] at hbody h
      rw [hlast] at h
      cases h
      refine ⟨some p₁.nodes, rfl, .some ⟨a, p₁.active, _, hbody⟩, fun o' d' outer' => ?_⟩
      rw [hending, run_cons_ok (helse _ _ _ _)]
      refine .append (hother _ outer' rfl) ?_
      rw [hlast]
      exact .reached
    · rw [hending, run_cons, step_else env a d nodes outer before c o b.named, if_neg hempty] at h
      cases h

/-- The branches and the end of a block complete it, and do so as well where each branch is nested in the `else` branch
of the one before. -/
theorem run_branches (s : ConditionalSource) (elifs : List (BranchSource "elif"))
    (hif : env.directive? a "if" = some .conditional)
    (h : run env (onOneLine (elifs.flatMap BranchSource.segments ++ s.ending))
      ⟨a, nodes, ⟨o, .branch before c, d⟩ :: outer⟩ = .ok p) :
    ∃ more other, p = ⟨p.active, d ++ [.choice (before ++ (c, nodes) :: more) other], outer⟩ ∧
      List.Forall₂ (BranchSource.Compiled env) elifs more ∧
      Option.Rel (fun b => BodyCompiled env b.body) s.otherwise other ∧
      ∀ o' d' outer', Reaches True ⟨p.active, d' ++ [nest (c, nodes) more other], outer'⟩
        (run env (onOneLine (elifs.flatMap BranchSource.inElse ++
            (s.ending ++ List.replicate elifs.length (tag "endif" ""))))
          ⟨a, nodes, ⟨o', .branch [] c, d'⟩ :: outer'⟩) := by
  induction elifs generalizing a nodes before c with
  | nil =>
    obtain ⟨other, hp, hotherwise, hnested⟩ := s.run_ending h
    refine ⟨[], other, hp, .nil, hotherwise, fun o' d' outer' => ?_⟩
    simpa [nest] using hnested o' d' outer'
  | cons b rest ih =>
    rw [List.flatMap_cons, List.append_assoc, onOneLine_append, run_append] at h
    obtain ⟨p₁, hbranch, h⟩ := bind_eq_ok_iff.mp h
    have hif₁ := Environment.directive?_mono (subset_of_run hbranch) hif
    obtain ⟨c₁, hp₁, hcompiled, hinElse⟩ := b.run_elif hif hbranch
    rw [hp₁] at h
    obtain ⟨more, other, hp, helifs, hotherwise, hnested⟩ := ih hif₁ h
    refine ⟨(c₁, p₁.nodes) :: more, other, by simpa using hp, .cons hcompiled helifs, hotherwise, ?_⟩
    intro o' d' outer'
    -- the last end tag is the one of the block that the branch is nested in
    have hsplit : (b :: rest).flatMap BranchSource.inElse ++
          (s.ending ++ List.replicate (b :: rest).length (tag "endif" "")) =
        b.inElse ++ ((rest.flatMap BranchSource.inElse ++
          (s.ending ++ List.replicate rest.length (tag "endif" ""))) ++ [tag "endif" ""]) := by
      simp [List.replicate_succ']
    have hend := step_endif_otherwise env p.active d' ([] ++ [nest (c₁, p₁.nodes) more other]) outer' [(c, nodes)] o'
      (heads_bare (by decide) 1).isBlock
    rw [hsplit, onOneLine_append, onOneLine_append]
    refine (hinElse o' d' outer').append ((hnested _ [] _).append ?_)
    rw [onOneLine_cons, run_cons_ok hend]
    exact .reached

/-! ## The two ways to write a block -/

/-- The tags that come to stand in the place of an `elif` tag are kept apart from what is around it. -/
theorem canonical_inElse (left right : List Segment) (elifs : List (BranchSource "elif"))
    (h : Canonical (left ++ (elifs.flatMap BranchSource.segments ++ right))) :
    Canonical (left ++ (elifs.flatMap BranchSource.inElse ++ right)) := by
  induction elifs generalizing left with
  | nil => exact h
  | cons b elifs ih =>
    have hopener : left ++ ((b :: elifs).flatMap BranchSource.segments ++ right) =
        left ++ b.opener :: (b.body ++ (elifs.flatMap BranchSource.segments ++ right)) := by
      simp [BranchSource.segments]
    rw [hopener] at h
    have hkind : (b.opener.token 1).kind = .block := (Token.isBlock_iff.mp b.named).1
    have helse : (tag "else" "").IsClean := tag_isClean (by decide) (by decide)
    have hif : (tag "if" b.header).IsClean :=
      tag_isClean (by decide) ((h.clean b.opener (by simp)).unmarked_tagContent hkind)
    have htags : ∀ t ∈ [tag "else" "", tag "if" b.header], t.IsClean ∧ t.kind ≠ .text :=
      List.forall_mem_cons.mpr ⟨⟨helse, TokenKind.noConfusion⟩, List.forall_mem_singleton.mpr
        ⟨hif, TokenKind.noConfusion⟩⟩
    have hlater := ih (left ++ (tag "else" "" :: tag "if" b.header :: b.body))
      (by simpa using h.replace (List.cons_ne_nil _ _) htags)
    simpa [BranchSource.inElse] using hlater

/-- Where the segments of a block are kept apart, so are those of the block with nested branches. -/
theorem canonical_nested (s : ConditionalSource) {left right : List Segment}
    (h : Canonical (left ++ (s.segments ++ right))) : Canonical (left ++ (s.nested ++ right)) := by
  have hnested := canonical_inElse (left ++ s.first.segments) (s.ending ++ right) s.elifs (by simpa [segments] using h)
  have hclean : s.endTag.IsClean := h.clean s.endTag (by simp [segments, ending])
  have hkind : s.endTag.kind ≠ .text := by
    rw [← token_kind, (Token.isBlock_iff.mp s.ends).1]
    exact TokenKind.noConfusion
  have hends : ∀ t ∈ s.endTag :: List.replicate s.elifs.length (tag "endif" ""), t.IsClean ∧ t.kind ≠ .text := by
    refine List.forall_mem_cons.mpr ⟨⟨hclean, hkind⟩, fun t ht => ?_⟩
    rw [List.eq_of_mem_replicate ht]
    exact ⟨tag_isClean (by decide) (by decide), TokenKind.noConfusion⟩
  have hlast : Canonical (left ++ (s.first.segments ++ (s.elifs.flatMap BranchSource.inElse ++
      s.otherwise.toList.flatMap BranchSource.segments)) ++ s.endTag :: right) := by
    simpa [ending] using hnested
  simpa [nested, ending] using hlast.replace (List.cons_ne_nil _ _) hends

/-- Where a block compiles, it compiles to its branches, and so it does with nested branches. -/
theorem run_block (s : ConditionalSource) (hc : Compiles blocks)
    (h : run env (onOneLine s.segments) ⟨a, d, blocks⟩ = .ok p) :
    ∃ first more otherwise, s.Compiled env first more otherwise ∧
      p = ⟨p.active, d ++ [.choice (first :: more) otherwise], blocks⟩ ∧
      Reaches True ⟨p.active, d ++ [nest first more otherwise], blocks⟩
        (run env (onOneLine s.nested) ⟨a, d, blocks⟩) := by
  have hsegments : onOneLine s.segments = s.first.opener.token 1 ::
      (onOneLine s.first.body ++ onOneLine (s.elifs.flatMap BranchSource.segments ++ s.ending)) := by
    simp [segments, BranchSource.segments]
  have hnested : onOneLine s.nested = s.first.opener.token 1 :: (onOneLine s.first.body ++
      onOneLine (s.elifs.flatMap BranchSource.inElse ++
        (s.ending ++ List.replicate s.elifs.length (tag "endif" "")))) := by
    simp [nested, BranchSource.segments]
  rw [hsegments] at h
  obtain ⟨p₁, hstep, h⟩ := bind_eq_ok_iff.mp (run_cons env _ _ _ ▸ h)
  obtain ⟨c, hif, hread, rfl⟩ := step_if s.first.named hc hstep
  rw [run_append] at h
  obtain ⟨p₂, hbody, h⟩ := bind_eq_ok_iff.mp h
  obtain ⟨hp₂, -⟩ := run_body_inBlock s.first.closed rfl hbody
  have hif₂ := Environment.directive?_mono (subset_of_run hbody) hif
  rw [hp₂] at hbody h
  obtain ⟨more, otherwise, hp, helifs, hotherwise, hreaches⟩ := s.run_branches s.elifs hif₂ h
  refine ⟨(c, p₂.nodes), more, otherwise, ⟨⟨⟨a, hread⟩, a, p₂.active, _, hbody⟩, helifs, hotherwise⟩, hp, ?_⟩
  rw [hnested, run_cons_ok hstep, run_append_ok hbody]
  exact hreaches _ _ _

end ConditionalSource

/-- Source with a block between other segments. -/
def Segment.around (left block right : List Segment) : String := String.ofList (source (left ++ (block ++ right)))

/-- Wherever an `if` block stands in a template, its `elif` branches may be nested in the `else` branches of those
before them, as long as not too many block tags are open at once. The template compiles to the same tree around the same
branches, and is rendered with the same text or failure and with the same journal: conditions are tried in order until
one holds, and its branch is rendered, or the `else` branch or nothing if none holds. -/
theorem compile_nested_branches (henv : env.StandardTagsOnly) {s : ConditionalSource} {left right : List Segment}
    (hcanonical : Canonical (left ++ (s.segments ++ right)))
    (hplace : run env (onOneLine left) (start base) = .ok p) (hc : Compiles p.blocks)
    (hcompile : env.compile base (Segment.around left s.segments right) = .ok nodes)
    (hroom : ∀ e, env.compile base (Segment.around left s.nested right) = .error e →
      e.cause ≠ .tooManyOpenTags Environment.maxOpenTags) :
    ∃ first more otherwise tree, s.Compiled env first more otherwise ∧
      nodes = fillAll (.choice (first :: more) otherwise) tree ∧
      env.compile base (Segment.around left s.nested right) = .ok (fillAll (nest first more otherwise) tree) ∧
      watchAll (fillAll (nest first more otherwise) tree) = watchAll nodes ∧
      renderAll (fillAll (nest first more otherwise) tree) = renderAll nodes ∧
      (Node.choice (first :: more) otherwise).TriesInOrder (first :: more) otherwise ∧
      (nest first more otherwise).TriesInOrder (first :: more) otherwise := by
  obtain ⟨a, d, blocks⟩ := p
  have hcanonical' := s.canonical_nested hcanonical
  obtain ⟨active, hrun⟩ := (compile_eq_ok_iff_run henv hcanonical String.toList_ofList).mp hcompile
  rw [onOneLine_append, run_append_ok hplace, onOneLine_append, run_append] at hrun
  obtain ⟨⟨a', d', blocks'⟩, hblock, hafter⟩ := bind_eq_ok_iff.mp hrun
  obtain ⟨first, more, otherwise, hcompiled, hp, hnested⟩ := s.run_block hc hblock
  rw [hp] at hafter
  obtain ⟨tree, hnodes, htree⟩ := exists_around hplace hafter
  have hwatch : (nest first more otherwise).watch = (Node.choice (first :: more) otherwise).watch :=
    watch_nest first more otherwise
  have hsame : watchAll (fillAll (nest first more otherwise) tree) = watchAll nodes := by
    rw [hnodes, watchAll_fill hwatch]
  have hrender : renderAll (fillAll (nest first more otherwise) tree) = renderAll nodes := by
    rw [← plain_watchAll, hsame, plain_watchAll]
  have hreaches : Reaches True ⟨active, fillAll (nest first more otherwise) tree, []⟩
      (run env (onOneLine (left ++ (s.nested ++ right))) (start base)) := by
    rw [onOneLine_append, run_append_ok hplace, onOneLine_append]
    refine hnested.append ?_
    rw [htree]
    exact .reached
  have hcompile' : env.compile base (Segment.around left s.nested right) =
      .ok (fillAll (nest first more otherwise) tree) := by
    generalize hresult : run env (onOneLine (left ++ (s.nested ++ right))) (start base) = result at hreaches
    cases hreaches with
    | reached => exact (compile_eq_ok_iff_run henv hcanonical' String.toList_ofList).mpr ⟨active, hresult⟩
    | tooDeep _ line =>
      obtain ⟨e, herror, hcause⟩ := exists_error_of_run henv hcanonical' String.toList_ofList hresult
      exact absurd hcause (hroom e herror)
  refine ⟨first, more, otherwise, tree, hcompiled, hnodes, hcompile', hsame, hrender, choice_triesInOrder _ _, ?_⟩
  intro st
  rw [hwatch]
  exact choice_triesInOrder _ _ st

/-- A block with two `elif` branches, one of which is a loop, and an `else` branch. -/
def listing : ConditionalSource where
  first := ⟨tag "if" "n > 9", [⟨.text, "many".toList⟩], by decide, by decide⟩
  elifs := [⟨tag "elif" "xs", [tag "for" "x in xs", ⟨.variable, "x".toList⟩, tag "endfor" ""], by decide, by decide⟩,
    ⟨tag "elif" "not xs", [], by decide, by decide⟩]
  otherwise := some ⟨tag "else" "", [⟨.text, "none".toList⟩], by decide, by decide⟩
  endTag := tag "endif" ""
  ends := by decide

/-- Behind a text the block can be nested. -/
theorem compile_nested_branches_listing :
    (Environment.standard .latest).StandardTagsOnly ∧ Canonical ([⟨.text, "xs: ".toList⟩] ++ (listing.segments ++ [])) ∧
    ∃ p nodes nodes', run (Environment.standard .latest) (onOneLine [⟨.text, "xs: ".toList⟩]) (start [0, 1]) = .ok p ∧
      Compiles p.blocks ∧
      (Environment.standard .latest).compile [0, 1] (Segment.around [⟨.text, "xs: ".toList⟩] listing.segments []) =
        .ok nodes ∧
      (Environment.standard .latest).compile [0, 1] (Segment.around [⟨.text, "xs: ".toList⟩] listing.nested []) =
        .ok nodes' ∧
      watchAll nodes' = watchAll nodes ∧ renderAll nodes' = renderAll nodes := by
  have henv := Environment.standard_standardTagsOnly .latest
  have hcanonical : Canonical ([⟨.text, "xs: ".toList⟩] ++ (listing.segments ++ [])) := by decide +kernel
  have hplace : run (Environment.standard .latest) (onOneLine [⟨.text, "xs: ".toList⟩]) (start [0, 1]) =
      .ok ⟨[0, 1], [.text "xs: "], []⟩ := rfl
  have hcompiles : ((Environment.standard .latest).compile [0, 1]
      (Segment.around [⟨.text, "xs: ".toList⟩] listing.segments [])).isOk = true := by decide +kernel
  have hcompiles' : ((Environment.standard .latest).compile [0, 1]
      (Segment.around [⟨.text, "xs: ".toList⟩] listing.nested [])).isOk = true := by decide +kernel
  obtain ⟨nodes, hnodes⟩ := exists_of_isOk hcompiles
  obtain ⟨nodes', hnodes'⟩ := exists_of_isOk hcompiles'
  have hroom : ∀ e, (Environment.standard .latest).compile [0, 1]
      (Segment.around [⟨.text, "xs: ".toList⟩] listing.nested []) = .error e →
        e.cause ≠ .tooManyOpenTags Environment.maxOpenTags := fun e he => by
    rw [hnodes'] at he
    cases he
  obtain ⟨first, more, otherwise, tree, -, -, hnested, hwatch, hrender, -⟩ :=
    compile_nested_branches henv hcanonical hplace (by simp [Compiles]) hnodes hroom
  obtain rfl : nodes' = _ := Except.ok.inj (hnodes'.symm.trans hnested)
  exact ⟨henv, hcanonical, _, nodes, _, hplace, by simp [Compiles], hnodes, hnested, hwatch, hrender⟩

end TextTemplate
