import TextTemplate.Proofs.Compile.Likeness
import TextTemplate.Proofs.Compile.FirstFailure
import TextTemplate.Proofs.Token.Cut

/-!
# Text in front of a template

Text without a brace in front of source becomes part of the text that the source starts with, or a token before all
others. So the template writes the text first and is the same otherwise, and a failure is the same one further down.
-/

namespace TextTemplate

open Segment

namespace Node

variable {a b : List Char}

/-- A text as nodes: there is none where there is no text. -/
def texts (s : List Char) : List Node := if s = [] then [] else [.text (String.ofList s)]

@[simp] theorem renderAll_texts (s : List Char) : renderAll (texts s) = pure (String.ofList s) := by
  by_cases h : s = []
  · rw [texts, if_pos h, h]
    rfl
  · simp only [texts, if_neg h, renderAll, render_text, pure_bind, String.append_empty]

theorem texts_writesAfter (a b : List Char) : WritesAfter (String.ofList a) (texts b) (texts (a ++ b)) := by
  rw [WritesAfter, renderAll_texts, renderAll_texts, pure_bind, String.ofList_append]

end Node

namespace Progress

variable {env : Environment} {p : Progress}

/-- A text adds its node to a body that is compiled. -/
theorem run_texts (hc : Compiles p.blocks) (s : List Char) (line : Nat) :
    run env (tokensFrom line (texts s)) p = .ok { p with nodes := p.nodes ++ Node.texts s } := by
  by_cases h : s = []
  · simp [h, Node.texts]
  · have hstep : p.step env (Lexer.textToken s line) = .ok { p with nodes := p.nodes ++ [.text (String.ofList s)] } :=
      step_eq_item hc (awaits_eq_false_of_kind TokenKind.noConfusion)
    rw [texts_of_ne_nil h, Node.texts, if_neg h]
    exact run_cons_ok hstep

end Progress

variable {env : Environment} {text : String}

/-- Once the text that source starts with is compiled, what is left starts with an opening mark. -/
theorem compile_eq_outcome_takeText (henv : env.StandardTagsOnly) (base : List Nat) (source : String) :
    env.compile base source =
      let text := (Lexer.takeText source.toList).1
      let rest := Lexer.scan (Lexer.takeText source.toList).2 (1 + Lexer.newlines text)
      Progress.outcome env ⟨base, Node.texts text, []⟩ rest.1 rest.2 := by
  have hrun : Progress.run env _ (Progress.start base) = .ok _ :=
    Progress.run_texts (by simp [Progress.Compiles, Progress.start]) (Lexer.takeText source.toList).1 1
  rw [compile_eq_outcome henv, Lexer.tokens, Lexer.scan_takeText]
  exact Progress.outcome_append_ok hrun _

/-- Source with text in front of it is compiled side by side with the source, on lines further down. -/
theorem compile_text_append (henv : env.StandardTagsOnly) (htext : '\x7b' ∉ text.toList) (base : List Nat)
    (source : String) :
    Corresponds (fun n n' => n' = n + Lexer.newlines text.toList) (Node.WritesAfter text) (env.compile base source)
      (env.compile base (text ++ source)) := by
  let first := (Lexer.takeText source.toList).1
  have hafter := Node.texts_writesAfter text.toList first
  rw [String.ofList_toList] at hafter
  have hlines (n : Nat) :
      1 + Lexer.newlines (text.toList ++ first) + n = 1 + Lexer.newlines first + n + Lexer.newlines text.toList := by
    rw [Lexer.newlines_append]
    omega
  obtain ⟨htokens, hfault⟩ := Lexer.scan_moved (L := fun n n' => n' = n + Lexer.newlines text.toList)
    (Lexer.takeText source.toList).2 hlines
  have hbehind := compile_eq_outcome_takeText henv base (text ++ source)
  rw [String.toList_append, Lexer.takeText_append_of_notMem htext] at hbehind
  rw [compile_eq_outcome_takeText henv base source, hbehind]
  exact Progress.Alike.outcome ⟨rfl, .outermost hafter⟩ htokens hfault

/-- Text without a brace in front of source changes nothing about the source: what compiles writes the text first,
and what fails fails in the same way, with as many lines more as end in the text. -/
theorem compile_behind_text (henv : env.StandardTagsOnly) (htext : '\x7b' ∉ text.toList) (base : List Nat)
    (source : String) :
    match env.compile base source with
    | .ok nodes => ∃ nodes', env.compile base (text ++ source) = .ok nodes' ∧
        Node.renderAll nodes' = (do return text ++ (← Node.renderAll nodes))
    | .error e => ∃ line : Nat, e.line = some line ∧ env.compile base (text ++ source) =
        .error ⟨e.cause, some (line + Lexer.newlines text.toList : Nat)⟩ := by
  have hcompile := compile_text_append henv htext base source
  revert hcompile
  generalize env.compile base source = r
  generalize env.compile base (text ++ source) = r'
  rintro (⟨after⟩ | ⟨⟨cause, rfl⟩⟩)
  · exact ⟨_, rfl, after⟩
  · exact ⟨_, rfl, rfl⟩

/-- Source that writes text before and after a variable, the first of it with a closing mark in it. -/
def greetingSource : String := "%\x7d \x7b\x7b x \x7d\x7d!"

/-- In front of source that fails, two lines of text move the failure two lines down; in front of source that
compiles, they are written first. -/
theorem compile_behind_text_lines :
    (Environment.standard .latest).compile [0, 1] unknownFilterSource = .error ⟨.unknownFilter "nope", some 2⟩ ∧
      (Environment.standard .latest).compile [0, 1] ("#\n\x7d\n" ++ unknownFilterSource) =
        .error ⟨.unknownFilter "nope", some 4⟩ ∧
      ∃ nodes nodes', (Environment.standard .latest).compile [0, 1] greetingSource = .ok nodes ∧
        (Environment.standard .latest).compile [0, 1] ("#\n\x7d\n" ++ greetingSource) = .ok nodes' ∧
        Node.renderAll nodes' = (do return "#\n\x7d\n" ++ (← Node.renderAll nodes)) := by
  have hfails : (match (Environment.standard .latest).compile [0, 1] unknownFilterSource with
      | .ok _ => false
      | .error e => decide (e = ⟨.unknownFilter "nope", some 2⟩)) = true := by decide +kernel
  have hcompiles : ((Environment.standard .latest).compile [0, 1] greetingSource).isOk = true := by decide +kernel
  have hbrace : '\x7b' ∉ "#\n\x7d\n".toList := by decide
  have hfailing := compile_behind_text (Environment.standard_standardTagsOnly .latest) hbrace [0, 1] unknownFilterSource
  have hcompiling := compile_behind_text (Environment.standard_standardTagsOnly .latest) hbrace [0, 1] greetingSource
  cases herror : (Environment.standard .latest).compile [0, 1] unknownFilterSource with
  | ok nodes =>
    rw [herror] at hfails
    cases hfails
  | error e =>
    rw [herror] at hfails hfailing
    obtain rfl : e = ⟨.unknownFilter "nope", some 2⟩ := of_decide_eq_true hfails
    obtain ⟨line, hline, hmoved⟩ := hfailing
    obtain rfl : line = 2 := by exact_mod_cast (Option.some.inj hline).symm
    refine ⟨rfl, hmoved, ?_⟩
    cases hok : (Environment.standard .latest).compile [0, 1] greetingSource with
    | error e =>
      rw [hok] at hcompiles
      cases hcompiles
    | ok nodes =>
      rw [hok] at hcompiling
      obtain ⟨nodes', hnodes', hrender⟩ := hcompiling
      exact ⟨nodes, nodes', rfl, hnodes', hrender⟩

end TextTemplate
