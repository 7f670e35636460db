import TextTemplate.Proofs.Compile.Truncation

/-!
# The first failure counts

Source is compiled from left to right, and compiling stops at the first thing that is wrong. A failure over
something that stands in the source is therefore final: source that goes on after it fails in the same way,
whatever it goes on with. Only failures over what is missing at the end can be mended by more source.
-/

namespace TextTemplate

open Grammar Progress

namespace CompileCause

/-- Failures over what is missing at the end: the end of a delimiter or of a block, or one more token. -/
def isOpenEnded : CompileCause → Bool
  | unclosedDelimiter .. | unexpectedEnd | unclosedTag .. => true
  | _ => false

end CompileCause

variable {env : Environment} {p : Progress} {u w : List Token} {e : CompileError}

namespace Progress

/-- Tokens that fail to compile do so whatever follows them. -/
theorem run_append_error (h : run env u p = .error e) : run env (u ++ w) p = .error e := by
  rw [run_append, h]
  rfl

/-- Where all tokens compile, what fails at the end is a block or a delimiter that is open there. -/
theorem finish_isOpenEnded {source : String} (h : p.finish (Lexer.tokens source).2 = .error e) :
    e.cause.isOpenEnded = true := by
  cases hfault : (Lexer.tokens source).2 with
  | some fault =>
    rw [hfault] at h
    obtain rfl : fault = e := by simpa [finish] using h
    obtain ⟨rest, hrest⟩ := Lexer.scan_partitions source.toList 1
    obtain ⟨kind, -, inside, -, -, rfl⟩ := (hrest.fault_iff fault).mp hfault
    rfl
  | none =>
    rw [hfault] at h
    rcases p with ⟨active, nodes, _ | ⟨b, outer⟩⟩
    · cases h
    · obtain rfl : _ = e := by simpa [finish] using h
      rfl

/-- A failure over a token is met among the tokens that stay when the source goes on: only a literal text at the
end may change, and that compiles. -/
theorem run_common_error {common last : List Token} (hlast : last = [] ∨ ∃ t, last = [t] ∧ t.kind = .text)
    (h : run env (common ++ last) p = .error e) : run env common p = .error e := by
  cases hcommon : run env common p with
  | error e' =>
    rw [run_append_error hcommon] at h
    exact h
  | ok p' =>
    rw [run_append_ok hcommon] at h
    rcases hlast with rfl | ⟨t, rfl, ht⟩
    · cases h
    · obtain ⟨p'', hstep⟩ : ∃ p'', p'.step env t = .ok p'' := step_text p' ht
      rw [run_cons_ok hstep] at h
      cases h

end Progress

/-- A failure that is not over something missing at the end is the failure of every source that begins so, with
the same line: nothing after the offending token is reported in its place. -/
theorem compile_append_error (henv : env.StandardTagsOnly) {base : List Nat} {source : String}
    (h : env.compile base source = .error e) (he : e.cause.isOpenEnded = false) (more : String) :
    env.compile base (source ++ more) = .error e := by
  rw [compile_eq_outcome henv, outcome] at h
  cases hrun : run env (Lexer.tokens source).1 (start base) with
  | ok p =>
    rw [hrun] at h
    rw [finish_isOpenEnded h] at he
    cases he
  | error e' =>
    rw [hrun] at h
    obtain rfl : e' = e := by simpa [bind, Except.bind] using h
    obtain ⟨common, last, hscan, ⟨later, hlater⟩, hlast⟩ := Lexer.scan_extend source.toList more.toList 1
    rw [Lexer.tokens, hscan] at hrun
    have htokens : (Lexer.tokens (source ++ more)).1 = common ++ later := by
      rw [hlater, Lexer.tokens, String.toList_append]
    rw [compile_eq_outcome henv, outcome, htokens, run_append_error (run_common_error hlast hrun)]
    rfl

/-- Source with an unknown filter in the body of a loop that it does not close. -/
def unknownFilterSource : String := "a\n\x7b% for i in y %\x7d\x7b\x7b i|nope \x7d\x7d"

/-- The filter is reported with its line, and still is before a wrong end tag and a delimiter that is not closed. -/
theorem compile_append_error_filter :
    (Environment.standard .latest).compile [0, 1] unknownFilterSource = .error ⟨.unknownFilter "nope", some 2⟩ ∧
      (Environment.standard .latest).compile [0, 1] (unknownFilterSource ++ "\x7b% endif %\x7d\n\x7b\x7b") =
        .error ⟨.unknownFilter "nope", some 2⟩ := by
  have hfails : (match (Environment.standard .latest).compile [0, 1] unknownFilterSource with
      | .ok _ => false
      | .error e => decide (e = ⟨.unknownFilter "nope", some 2⟩)) = true := by decide +kernel
  cases h : (Environment.standard .latest).compile [0, 1] unknownFilterSource with
  | ok nodes =>
    rw [h] at hfails
    cases hfails
  | error e =>
    rw [h] at hfails
    obtain rfl : e = ⟨.unknownFilter "nope", some 2⟩ := of_decide_eq_true hfails
    exact ⟨rfl, compile_append_error (Environment.standard_standardTagsOnly .latest) h rfl _⟩

end TextTemplate
