import TextTemplate.Library.Standard
import TextTemplate.Proofs.Compile.Agreement

/-!
# Well-nested templates

What the compiler accepts is what the grammar derives. For a whole template this goes both ways. For a body
that is compiled in the middle of a template, with some block tags open, the tokens taken are derived with the
room that is left, the others are still there, and the open tags are the same in the end, also after a failure.
-/

namespace TextTemplate

open Grammar CompileM Progress

theorem exists_of_isOk {ε α : Type} {r : Except ε α} (h : r.isOk = true) : ∃ a, r = .ok a := by
  cases r with
  | ok a => exact ⟨a, rfl⟩
  | error e => cases h

/-- Whether a computation has failed in one way can be told without comparing answers. -/
instance decidableEqError {ε α : Type} [DecidableEq ε] (r : Except ε α) (e : ε) : Decidable (r = .error e) :=
  match r with
  | .ok _ => isFalse fun h => by cases h
  | .error e' => decidable_of_iff (e' = e) (by rw [Except.error.injEq])

namespace Environment

/-- The environment of the standard libraries, each under its own name. -/
def standard (precedence : Precedence) : Environment where
  libraries := [StandardLibrary.tags, StandardLibrary.filters]
  find
    | "defaulttags" => .ok 0
    | "defaultfilters" => .ok 1
    | _ => .error "available: defaultfilters, defaulttags"
  precedence := precedence

theorem standard_standardTagsOnly (precedence : Precedence) : (standard precedence).StandardTagsOnly := by
  intro l hl name factory hfind
  rcases List.mem_pair.mp hl with rfl | rfl
  · exact hfind
  · simp [StandardLibrary.filters, Library.ofEntries, Library.tag?] at hfind

end Environment

variable {env : Environment}

/-- A template compiles exactly if its tokens, all of them, are a body of the grammar, and to the nodes of that
body. -/
theorem compile_eq_ok_iff (henv : env.StandardTagsOnly) {base : List Nat} {source : String}
    {nodes : List Node} : env.compile base source = .ok nodes ↔
      (Lexer.tokens source).2 = none ∧
        ∃ active, Body env Environment.maxOpenTags base (Lexer.tokens source).1 nodes active := by
  constructor
  · exact body_of_compile_eq_ok henv
  · rintro ⟨hnone, active, hbody⟩
    rw [compile_eq_outcome henv, hnone, outcome_of_body hbody]

/-- Compiling a body up to a stop set takes a prefix of the tokens that the grammar derives, in one way only,
with the room left by the open tags, and gives the nodes of the derivation; all other tokens are still to be
read, from a tag of the stop set on or, if that is empty, none. The open tags are the same in the end, also
after a failure. -/
theorem parseAt_wellNested (henv : env.StandardTagsOnly) (stop : List String) (s : Session) :
    match env.parseAt (Environment.maxOpenTags - s.openTags.length) stop s with
    | .ok nodes s' => s'.openTags = s.openTags ∧ StoppedAt stop s'.stream ∧
        s'.stream.fault = s.stream.fault ∧ ∃ u, s.stream.unread = u ++ s'.stream.unread ∧
          Body env (Environment.maxOpenTags - s.openTags.length) s.active u nodes s'.active ∧
          ∀ nodes' active, Body env (Environment.maxOpenTags - s.openTags.length) s.active u nodes' active →
            nodes' = nodes ∧ active = s'.active
    | .error _ s' => s'.openTags = s.openTags := by
  have hparse := parseAt_parsesBodies henv (Environment.maxOpenTags - s.openTags.length) stop s
  cases hrun : env.parseAt (Environment.maxOpenTags - s.openTags.length) stop s with
  | ok nodes s' =>
    obtain ⟨u, htook, hbody, hstopped⟩ := hparse.of_ok hrun
    exact ⟨htook.openTags_eq, hstopped, htook.fault_eq, u, htook.unread_eq, hbody,
      fun nodes' active h => body_unique (Nat.sub_le _ _) h hbody⟩
  | error e s' => exact (hparse.of_error hrun).1

/-- A session inside an `if` tag, before the end of its first branch. -/
def Session.inBranch : Session where
  stream := .ofTokens [⟨.block, "spaceless", 1, "spaceless"⟩, ⟨.text, "x", 1, "x"⟩,
    ⟨.block, "endspaceless", 1, "endspaceless"⟩, ⟨.block, "else", 1, "else"⟩, ⟨.text, "y", 1, "y"⟩] none
  active := [0, 1]
  openTags := [⟨.block, "if a", 1, "if a"⟩]

/-- The first three tokens of the branch are taken, and the `else` after them is left. -/
theorem parseAt_wellNested_inBranch : (Environment.standard .latest).StandardTagsOnly ∧
    ∃ nodes s', (Environment.standard .latest).parseAt 63 ["else"] .inBranch = .ok nodes s' ∧
      s'.stream.unread.length = 2 ∧ s'.openTags = Session.inBranch.openTags ∧ StoppedAt ["else"] s'.stream ∧
      ∃ u, Session.inBranch.stream.unread = u ++ s'.stream.unread ∧
        Body (.standard .latest) 63 [0, 1] u nodes s'.active := by
  have henv := Environment.standard_standardTagsOnly .latest
  have hreturns : (match (Environment.standard .latest).parseAt 63 ["else"] .inBranch with
      | .ok _ s' => decide (s'.stream.unread.length = 2)
      | .error _ _ => false) = true := by decide +kernel
  have h := parseAt_wellNested henv ["else"] .inBranch
  rw [show Environment.maxOpenTags - Session.inBranch.openTags.length = 63 from rfl] at h
  cases hrun : (Environment.standard .latest).parseAt 63 ["else"] .inBranch with
  | ok nodes s' =>
    rw [hrun] at h hreturns
    obtain ⟨hopen, hstopped, -, u, hunread, hbody, -⟩ := h
    exact ⟨henv, nodes, s', rfl, of_decide_eq_true hreturns, hopen, hstopped, u, hunread, hbody⟩
  | error e s' =>
    rw [hrun] at hreturns
    cases hreturns

end TextTemplate
