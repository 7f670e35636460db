import TextTemplate.Proofs.Compile.Truncation

/-!
# Bodies on other stacks

A body that is closed in itself is compiled above the blocks that are open where it stands, and does not touch them.
So it is compiled to the same nodes above any other blocks, unless these are so many more that the body opens too many
block tags. That it is closed can be told from the names of its block tags, and is so if the body compiles on its own.
-/

namespace TextTemplate

variable {env : Environment} {a : List Nat} {d : List Node} {inner outer : List OpenBlock} {p p₁ : Progress} {t : Token}
  {tokens : List Token}

/-- The tokens close the given blocks and those that they open themselves, and end no other block. -/
def Waiting.Closes : List Waiting → List Token → Prop
  | blocks, [] => blocks = []
  | blocks, t :: rest =>
    (blocks = [] → t.kind = .block → t.tagName ∉ Stage.terminators) ∧ Closes (after blocks t) rest

instance Waiting.decidableCloses : (blocks : List Waiting) → (tokens : List Token) → Decidable (Closes blocks tokens)
  | blocks, [] => inferInstanceAs (Decidable (blocks = []))
  | blocks, t :: rest =>
    have := decidableCloses (after blocks t) rest
    inferInstanceAs (Decidable
      ((blocks = [] → t.kind = .block → t.tagName ∉ Stage.terminators) ∧ Closes (after blocks t) rest))

namespace Progress

/-- A run comes to the given progress, or fails over too many open block tags, which it does only if `deeper`. -/
inductive Reaches (deeper : Prop) (p : Progress) : Except CompileError Progress → Prop
  | reached : Reaches deeper p (.ok p)
  | tooDeep (h : deeper) (line : Nat) :
    Reaches deeper p (.error ⟨.tooManyOpenTags Environment.maxOpenTags, some line⟩)

namespace Reaches

variable {deeper deeper' : Prop} {p' : Progress} {r : Except CompileError Progress}

theorem bind {f : Progress → Except CompileError Progress} (h : Reaches deeper p r) (hf : Reaches deeper p' (f p)) :
    Reaches deeper p' (r >>= f) := by
  cases h with
  | reached => exact hf
  | tooDeep h line => exact .tooDeep h line

theorem imp (h : Reaches deeper p r) (himp : deeper → deeper') : Reaches deeper' p r := by
  cases h with
  | reached => exact .reached
  | tooDeep h line => exact .tooDeep (himp h) line

theorem cons {q : Progress} (h : Reaches deeper p (q.step env t)) (hrest : Reaches deeper p' (run env tokens p)) :
    Reaches deeper p' (run env (t :: tokens) q) := by
  rw [run_cons]
  exact h.bind hrest

theorem append {q : Progress} {more : List Token} (h : Reaches deeper p (run env tokens q))
    (hmore : Reaches deeper p' (run env more p)) : Reaches deeper p' (run env (tokens ++ more) q) := by
  rw [run_append]
  exact h.bind hmore

theorem eq_ok (h : Reaches deeper p r) (hnot : ¬ deeper) : r = .ok p := by
  cases h with
  | reached => rfl
  | tooDeep h => exact absurd h hnot

end Reaches

/-- A block tag that compiles outside all blocks is no terminator. -/
theorem step_notMem_terminators (h : p.step env t = .ok p₁) (hnone : p.blocks = []) (ht : t.kind = .block) :
    t.tagName ∉ Stage.terminators := by
  obtain ⟨active, nodes, blocks⟩ := p
  obtain rfl : blocks = [] := hnone
  obtain ⟨k, hk, -⟩ := enter_of_item ht h
  have hnames : ∀ k ∈ Directive.all, k.name ∉ Stage.terminators := by decide
  have hname := Environment.directive?_name hk
  rw [← hname]
  exact hnames k (by cases k <;> decide)

/-- Tokens that compile on their own are closed in themselves. -/
theorem closes_of_run {active : List Nat} {nodes : List Node} (h : run env tokens p = .ok ⟨active, nodes, []⟩)
    (hnamed : ∀ b ∈ p.blocks, b.IsNamed) : Waiting.Closes (p.blocks.map OpenBlock.waiting) tokens := by
  induction tokens generalizing p with
  | nil =>
    obtain rfl : p = _ := Except.ok.inj h
    exact List.map_nil
  | cons t tokens ih =>
    obtain ⟨p₁, hstep, hrun⟩ := bind_eq_ok_iff.mp (run_cons env t tokens p ▸ h)
    obtain ⟨hnamed₁, hmap⟩ := step_openBlocks hstep hnamed
    refine ⟨fun hnone ht => step_notMem_terminators hstep (List.map_eq_nil_iff.mp hnone) ht, ?_⟩
    rw [← hmap]
    exact ih hrun hnamed₁

/-! ## One step -/

/-- A block tag is entered only where there is room for it. -/
theorem room_of_item {stop : List String} (ht : t.kind = .block) (h : p.item env stop t = .ok p₁) :
    p.blocks.length < Environment.maxOpenTags := by
  simp only [item, ht] at h
  split_ifs at h with _ hroom
  · split at h <;> cases h
  · exact Nat.lt_of_not_le hroom

/-- Where there is no room it is not entered. -/
theorem item_eq_error {k : Directive} (ht : t.kind = .block) (hk : env.directive? p.active t.tagName = some k)
    (hfull : Environment.maxOpenTags ≤ p.blocks.length) (stop : List String) :
    p.item env stop t = .error ⟨.tooManyOpenTags Environment.maxOpenTags, some t.line⟩ := by
  simp only [item, ht, Environment.directive?_isEmpty hk, Bool.false_eq_true, if_false, hk, if_pos hfull]

/-- Entering a block tag does not touch the blocks that are open. -/
theorem enter_rebased {k : Directive} (h : enter env ⟨a, d, inner ++ outer⟩ k t = .ok p₁) :
    ∃ inner₁, p₁.blocks = inner₁ ++ outer ∧ ∀ outer',
      enter env ⟨a, d, inner ++ outer'⟩ k t = .ok ⟨p₁.active, p₁.nodes, inner₁ ++ outer'⟩ := by
  unfold enter at h ⊢
  cases hopening : k.opening env a t.tagContent with
  | error e =>
    rw [hopening] at h
    cases h
  | ok opening =>
    simp only [hopening] at h ⊢
    cases opening with
    | leaf node active =>
      cases h
      exact ⟨inner, rfl, fun _ => rfl⟩
    | block stage =>
      cases h
      exact ⟨⟨t, stage, d⟩ :: inner, rfl, fun _ => rfl⟩

/-- A token that ends nothing is compiled in the same way above other blocks. -/
theorem item_rebased {stop : List String} (h : item env ⟨a, d, inner ++ outer⟩ stop t = .ok p₁) :
    ∃ inner₁, p₁.blocks = inner₁ ++ outer ∧ ∀ outer' stop',
      Reaches (outer.length < outer'.length) ⟨p₁.active, p₁.nodes, inner₁ ++ outer'⟩
        (item env ⟨a, d, inner ++ outer'⟩ stop' t) := by
  by_cases ht : t.kind = .block
  · obtain ⟨k, hk, henter⟩ := enter_of_item ht h
    obtain ⟨inner₁, hblocks, hrebased⟩ := enter_rebased henter
    have hroom := room_of_item ht h
    refine ⟨inner₁, hblocks, fun outer' stop' => ?_⟩
    by_cases hroom' : (inner ++ outer').length < Environment.maxOpenTags
    · rw [item_eq_enter (p := ⟨a, d, inner ++ outer'⟩) ht hk hroom', hrebased outer']
      exact .reached
    · rw [item_eq_error (p := ⟨a, d, inner ++ outer'⟩) ht hk (Nat.le_of_not_lt hroom')]
      simp only [List.length_append] at hroom hroom'
      exact .tooDeep (by omega) _
  · refine ⟨inner, item_blocks ht h, fun outer' stop' => ?_⟩
    unfold item at h ⊢
    cases hkind : t.kind with
    | text | comment =>
      simp only [hkind] at h ⊢
      cases h
      exact .reached
    | «variable» =>
      simp only [hkind] at h ⊢
      split_ifs at h ⊢
      split at h
      · cases h
        exact .reached
      · cases h
    | block => exact absurd hkind ht

/-- A token above some blocks that does not end them is compiled in the same way above others. -/
theorem step_rebased (hc : Compiles outer) (hclosed : inner = [] → t.kind = .block → t.tagName ∉ Stage.terminators)
    (h : step env ⟨a, d, inner ++ outer⟩ t = .ok p₁) :
    ∃ inner₁, p₁.blocks = inner₁ ++ outer ∧ ∀ outer', Compiles outer' →
      Reaches (outer.length < outer'.length) ⟨p₁.active, p₁.nodes, inner₁ ++ outer'⟩
        (step env ⟨a, d, inner ++ outer'⟩ t) := by
  cases inner with
  | nil =>
    have hstep (blocks : List OpenBlock) (hblocks : Compiles blocks) :
        step env ⟨a, d, blocks⟩ t = item env ⟨a, d, blocks⟩ (stopSet blocks) t := by
      refine step_eq_item hblocks ?_
      cases blocks with
      | nil => rfl
      | cons b _ =>
        have hnot : t.kind = .block → t.tagName ∉ b.stage.awaited := fun ht hmem =>
          hclosed rfl ht (b.stage.awaited_subset hmem)
        simpa [awaits] using hnot
    have hitem : item env ⟨a, d, [] ++ outer⟩ (stopSet outer) t = .ok p₁ := by
      rw [← h]
      exact (hstep outer hc).symm
    obtain ⟨inner₁, hblocks, hrebased⟩ := item_rebased hitem
    refine ⟨inner₁, hblocks, fun outer' hc' => ?_⟩
    rw [List.nil_append, hstep outer' hc']
    exact hrebased outer' _
  | cons b rest =>
    -- only the block on top is looked at
    simp only [List.cons_append, step] at h ⊢
    cases hawaits : awaits (b :: (rest ++ outer)) t with
    | true =>
      have hawaits' (outer' : List OpenBlock) : awaits (b :: (rest ++ outer')) t = true := hawaits
      simp only [hawaits, if_true] at h
      cases hresume : b.stage.resume (env.filterLookup a) d t with
      | error e =>
        rw [hresume] at h
        cases h
      | ok resumed =>
        rw [hresume] at h
        cases resumed with
        | again stage =>
          cases h
          refine ⟨{ b with stage := stage } :: rest, rfl, fun outer' _ => ?_⟩
          simp only [hawaits', if_true]
          exact .reached
        | closed node =>
          cases h
          refine ⟨rest, rfl, fun outer' _ => ?_⟩
          simp only [hawaits', if_true]
          exact .reached
    | false =>
      have hawaits' (outer' : List OpenBlock) : awaits (b :: (rest ++ outer')) t = false := hawaits
      simp only [hawaits, Bool.false_eq_true, if_false] at h
      cases hkeeps : b.stage.isOpaque with
      | true =>
        simp only [hkeeps, if_true] at h
        cases h
        refine ⟨{ b with stage := b.stage.keep t } :: rest, rfl, fun outer' _ => ?_⟩
        simp only [hawaits', Bool.false_eq_true, if_false, if_true]
        exact .reached
      | false =>
        simp only [hkeeps, Bool.false_eq_true, if_false] at h
        have hitem : item env ⟨a, d, (b :: rest) ++ outer⟩ b.stage.awaited t = .ok p₁ := h
        obtain ⟨inner₁, hblocks, hrebased⟩ := item_rebased hitem
        refine ⟨inner₁, hblocks, fun outer' _ => ?_⟩
        simp only [hawaits', Bool.false_eq_true, if_false]
        exact hrebased outer' _

/-! ## Bodies -/

/-- A body that is closed in itself leaves the blocks around it as they are, and is compiled in the same way above
others. -/
theorem run_rebased (hclosed : Waiting.Closes (inner.map OpenBlock.waiting) tokens) (hnamed : ∀ b ∈ inner, b.IsNamed)
    (hc : Compiles outer) (h : run env tokens ⟨a, d, inner ++ outer⟩ = .ok p) :
    p.blocks = outer ∧ ∀ outer', Compiles outer' →
      Reaches (outer.length < outer'.length) ⟨p.active, p.nodes, outer'⟩ (run env tokens ⟨a, d, inner ++ outer'⟩) := by
  induction tokens generalizing a d inner with
  | nil =>
    obtain rfl : inner = [] := List.map_eq_nil_iff.mp hclosed
    cases h
    exact ⟨rfl, fun _ _ => .reached⟩
  | cons t tokens ih =>
    obtain ⟨hfirst, hrest⟩ := hclosed
    obtain ⟨⟨a₁, d₁, blocks₁⟩, hstep, hrun⟩ := bind_eq_ok_iff.mp (run_cons env t tokens _ ▸ h)
    obtain ⟨inner₁, rfl, hrebased⟩ := step_rebased hc (fun hnil => hfirst (by rw [hnil, List.map_nil])) hstep
    -- above no blocks at all the names tell what is open
    have halone := (hrebased [] (by simp [Compiles])).eq_ok (Nat.not_lt_zero _)
    rw [List.append_nil, List.append_nil] at halone
    obtain ⟨hnamed₁, hmap⟩ := step_openBlocks halone hnamed
    rw [← hmap] at hrest
    obtain ⟨hblocks, hlater⟩ := ih hrest hnamed₁ hrun
    refine ⟨hblocks, fun outer' hc' => ?_⟩
    exact (hrebased outer' hc').cons (hlater outer' hc')

/-- So it is from its start. -/
theorem run_body_rebased (hclosed : Waiting.Closes [] tokens) (hc : Compiles outer)
    (h : run env tokens ⟨a, d, outer⟩ = .ok p) :
    p.blocks = outer ∧ ∀ outer', Compiles outer' →
      Reaches (outer.length < outer'.length) ⟨p.active, p.nodes, outer'⟩ (run env tokens ⟨a, d, outer'⟩) := by
  have hnone : Waiting.Closes (([] : List OpenBlock).map OpenBlock.waiting) tokens := hclosed
  exact run_rebased hnone (by simp) hc h

end Progress

end TextTemplate
