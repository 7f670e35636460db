import TextTemplate.Proofs.Compile.Truncation

/-!
# Libraries stay active

Compiling loads libraries and never gives one up. So a block tag that is known at one place of a template is known at
all places after it.
-/

namespace TextTemplate

variable {env : Environment} {active active' : List Nat} {t : Token} {p p' : Progress}

namespace Environment

theorem mem_inOrder_iff {l : TagLibrary} :
    l ∈ env.inOrder active ↔ ∃ number ∈ active, env.libraries[number]? = some l := by
  unfold inOrder
  cases env.precedence <;> simp

/-- With more libraries active a directive is still known. -/
theorem directive?_mono (hsubset : active ⊆ active') {name : String} {k : Directive}
    (h : env.directive? active name = some k) : env.directive? active' name = some k := by
  unfold directive? at h ⊢
  split_ifs at h with htag
  have htag' : (env.tag? active' name).isSome = true := by
    simp only [tag?, List.findSome?_isSome_iff] at htag ⊢
    obtain ⟨l, hl, hfound⟩ := htag
    obtain ⟨number, hnumber, hlibrary⟩ := mem_inOrder_iff.mp hl
    exact ⟨l, mem_inOrder_iff.mpr ⟨number, hsubset hnumber, hlibrary⟩, hfound⟩
  rw [if_pos htag', h]

theorem subset_of_loadAll {names : List String} (h : env.loadAll names active = .ok active') : active ⊆ active' := by
  induction names generalizing active with
  | nil =>
    cases h
    exact List.Subset.refl _
  | cons name rest ih =>
    rw [loadAll] at h
    cases hfind : env.find name with
    | error reason =>
      rw [hfind] at h
      cases h
    | ok number =>
      rw [hfind] at h
      refine List.Subset.trans (fun m hm => ?_) (ih h)
      by_cases hsame : m = number
      · simp [hsame]
      · simp [hm, hsame]

end Environment

theorem HeaderReader.subset_of_load {content : String} (h : HeaderReader.load env active content = .ok active') :
    active ⊆ active' := by
  simp only [load] at h
  split_ifs at h
  · cases h
  · exact Environment.subset_of_loadAll h

theorem Directive.subset_of_opening {k : Directive} {content : String} {node : Option Node}
    (h : k.opening env active content = .ok (.leaf node active')) : active ⊆ active' := by
  cases k with
  | load =>
    obtain ⟨loaded, hload, h⟩ := bind_eq_ok_iff.mp h
    cases h
    exact HeaderReader.subset_of_load hload
  | comment | verbatim | spaceless => cases h
  | _ =>
    obtain ⟨_, _, h⟩ := bind_eq_ok_iff.mp h
    cases h
    try exact List.Subset.refl _

namespace Progress

theorem subset_of_enter {k : Directive} (h : p.enter env k t = .ok p') : p.active ⊆ p'.active := by
  unfold enter at h
  split at h
  · cases h
  · cases h
    exact Directive.subset_of_opening ‹_›
  · cases h
    exact List.Subset.refl _

theorem subset_of_item {stop : List String} (h : p.item env stop t = .ok p') : p.active ⊆ p'.active := by
  by_cases hk : t.kind = .block
  · obtain ⟨k, -, henter⟩ := enter_of_item hk h
    exact subset_of_enter henter
  · unfold item at h
    split at h
    · cases h
      exact List.Subset.refl _
    · split_ifs at h
      split at h
      · cases h
        exact List.Subset.refl _
      · cases h
    · cases h
      exact List.Subset.refl _
    · exact absurd ‹_› hk

theorem subset_of_step (h : p.step env t = .ok p') : p.active ⊆ p'.active := by
  unfold step at h
  split at h
  · exact subset_of_item h
  · split_ifs at h
    · split at h
      · cases h
      · cases h
        exact List.Subset.refl _
      · cases h
        exact List.Subset.refl _
    · cases h
      exact List.Subset.refl _
    · exact subset_of_item h

/-- What is active at a place is active at every later one. -/
theorem subset_of_run {tokens : List Token} (h : run env tokens p = .ok p') : p.active ⊆ p'.active := by
  induction tokens generalizing p with
  | nil =>
    cases h
    exact List.Subset.refl _
  | cons t tokens ih =>
    obtain ⟨p₁, hstep, hrun⟩ := bind_eq_ok_iff.mp (run_cons env t tokens p ▸ h)
    exact List.Subset.trans (subset_of_step hstep) (ih hrun)

end Progress

end TextTemplate
