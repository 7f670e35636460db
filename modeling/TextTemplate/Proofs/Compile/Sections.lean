import TextTemplate.Proofs.Compile.WithForms
import TextTemplate.Proofs.Token.Cut

/-!
# Source compiled by its segments

To what nodes a template compiles does not depend on the lines that its tokens are on. So where only the nodes matter
source may be taken for its segments, which are put together and taken apart more easily than source is.
-/

namespace TextTemplate

open Progress

variable {env : Environment} {base : List Nat} {source : String} {nodes : List Node} {segments : List Segment}

/-- Where equal answers are related, results that correspond have the same answer. -/
theorem Corresponds.eq_ok_iff {L : Nat → Nat → Prop} {α : Type} {r r' : Except CompileError α} {a : α}
    (h : Corresponds L Eq r r') : r = .ok a ↔ r' = .ok a := by
  cases h with
  | ok related => rw [related]
  | error _ => exact iff_of_false nofun nofun

namespace Segment

/-- The tokens of segments as if all were on one line. -/
def onOneLine (segments : List Segment) : List Token := segments.map (·.token 1)

@[simp] theorem onOneLine_nil : onOneLine [] = [] := rfl

@[simp] theorem onOneLine_cons (s : Segment) (rest : List Segment) :
    onOneLine (s :: rest) = s.token 1 :: onOneLine rest := rfl

@[simp] theorem onOneLine_append (left right : List Segment) :
    onOneLine (left ++ right) = onOneLine left ++ onOneLine right := List.map_append

theorem token_moved (s : Segment) (line line' : Nat) : (s.token line).Moved (fun _ _ => True) (s.token line') := by
  obtain ⟨kind, inner⟩ := s
  cases kind <;> exact ⟨rfl, rfl, rfl, trivial⟩

theorem onOneLine_moved (segments : List Segment) (line : Nat) :
    List.Forall₂ (Token.Moved fun _ _ => True) (onOneLine segments) (tokensFrom line segments) := by
  induction segments generalizing line with
  | nil => exact .nil
  | cons s rest ih => exact .cons (s.token_moved 1 line) (ih _)

end Segment

open Segment

/-- Compiling source is compiling its segments, but for the line of a failure. -/
theorem corresponds_compile (henv : env.StandardTagsOnly) (h : Canonical segments)
    (hsource : source.toList = Segment.source segments) : Corresponds (fun _ _ => True) Eq
      ((start base).outcome env (onOneLine segments) none) (env.compile base source) := by
  have hself : (start base).Matches (fun _ _ => True) (start base) := ⟨rfl, rfl, .nil⟩
  rw [compile_eq_outcome henv, tokens_of_source h hsource]
  exact hself.outcome (onOneLine_moved segments 1) .none

theorem Progress.outcome_eq_ok_iff {p : Progress} {tokens : List Token} : p.outcome env tokens none = .ok nodes ↔
    ∃ active, run env tokens p = .ok ⟨active, nodes, []⟩ := by
  rw [outcome]
  constructor
  · intro h
    obtain ⟨⟨active, nodes', blocks⟩, hrun, hfinish⟩ := bind_eq_ok_iff.mp h
    cases blocks with
    | nil =>
      cases hfinish
      exact ⟨active, hrun⟩
    | cons b outer => cases hfinish
  · rintro ⟨active, hrun⟩
    rw [hrun]
    rfl

/-- Source compiles to nodes exactly if a run over its segments ends with these nodes and no open block. -/
theorem compile_eq_ok_iff_run (henv : env.StandardTagsOnly) (h : Canonical segments)
    (hsource : source.toList = Segment.source segments) : env.compile base source = .ok nodes ↔
      ∃ active, run env (onOneLine segments) (start base) = .ok ⟨active, nodes, []⟩ := by
  rw [← outcome_eq_ok_iff]
  exact (corresponds_compile henv h hsource).eq_ok_iff.symm

/-- If the run fails, compiling fails over the same, but for the line. -/
theorem exists_error_of_run (henv : env.StandardTagsOnly) (h : Canonical segments)
    (hsource : source.toList = Segment.source segments) {e : CompileError}
    (hrun : run env (onOneLine segments) (start base) = .error e) :
    ∃ e', env.compile base source = .error e' ∧ e'.cause = e.cause := by
  have houtcome : (start base).outcome env (onOneLine segments) none = .error e := by
    rw [outcome, hrun]
    rfl
  have hsame : Corresponds (fun _ _ => True) Eq (.error e) (env.compile base source) :=
    houtcome ▸ corresponds_compile henv h hsource
  generalize env.compile base source = r at hsame
  cases hsame with
  | error moved =>
    obtain ⟨cause, -⟩ := moved
    exact ⟨_, rfl, rfl⟩

/-- Source that compiles falls into segments, over which there is such a run. -/
theorem exists_run_of_compile (henv : env.StandardTagsOnly) (h : env.compile base source = .ok nodes) :
    ∃ segments active, Canonical segments ∧ source.toList = Segment.source segments ∧
      run env (onOneLine segments) (start base) = .ok ⟨active, nodes, []⟩ := by
  obtain ⟨hnone, -⟩ := body_of_compile_eq_ok henv h
  obtain ⟨segments, hcanonical, hsource, -⟩ := Lexer.exists_canonical_of_scan hnone
  obtain ⟨active, hrun⟩ := (compile_eq_ok_iff_run henv hcanonical hsource.symm).mp h
  exact ⟨segments, active, hcanonical, hsource.symm, hrun⟩

end TextTemplate
