import TextTemplate.Proofs.Compile.Conclusive
import TextTemplate.Proofs.Compile.ErrorLine

/-!
# One piece of template after the other

A body at the top of a template may be cut anywhere between two of its items: tokens that compile on their own
compile to the same nodes in front of other tokens, and what follows is compiled as it would be on its own with
the libraries that are active after them. One round of the compiler is split into the token that it takes and
the item that the token begins; then the number of rounds, and the line of the token before, are shown not to
matter.
-/

namespace TextTemplate

open CompileM

namespace Environment

/-- Every tag of the environment is a standard one, or one of the host that is conclusive. -/
def TagsConclusive (env : Environment) : Prop :=
  ∀ l ∈ env.libraries, ∀ name factory, l.tag? name = some factory →
    IsStandardTag factory ∨ TagFactory.Conclusive factory

variable {env : Environment}

theorem StandardTagsOnly.tagsConclusive (henv : env.StandardTagsOnly) : env.TagsConclusive :=
  fun l hl name factory hfind => .inl (isStandardTag_of_lookup (henv l hl name factory hfind))

/-- Compile a block tag by what the given libraries have under its name. -/
def dispatch (env : Environment) (inner : Option (List String → CompileM (List Node)))
    (t : Token) (stop : List String) (active : List Nat) : CompileM (Option Node) :=
  match env.tag? active t.tagName with
  | none => throw ⟨.unknownTag t.tagName stop, some t.line⟩
  | some factory =>
    match inner with
    | none => throw ⟨.tooManyOpenTags maxOpenTags, some t.line⟩
    | some parse => withOpenTag t (factory t.tagContent (env.handleWith parse t.content.length))

variable {inner : Option (List String → CompileM (List Node))} {stop : List String} {s s' s₁ : Session}
  {t : Token} {n n' : Nat}

section Inside

variable (henv : env.TagsConclusive) (hinner : ∀ parse ∈ inner, ∀ stop ≠ [], Conclusive (parse stop))
include henv hinner

end Inside

end Environment

/-- Nodes are rendered one part after the other. -/
theorem Node.renderAll_append (nodes more : List Node) :
    renderAll (nodes ++ more) = (do return (← renderAll nodes) ++ (← renderAll more)) := by
  induction nodes with
  | nil => simp only [renderAll, List.nil_append, pure_bind, String.empty_append, bind_pure]
  | cons n rest ih => simp only [List.cons_append, renderAll, ih, bind_assoc, pure_bind, String.append_assoc]

/-! ## Tokens on their own -/

/-- The session after a token of the given line. -/
def Session.after (s : Session) (line : Nat) : Session :=
  { s with stream := { s.stream with lastLine := line } }

namespace Environment

variable {env : Environment} {inner : Option (List String → CompileM (List Node))} {s : Session} {n : Nat}

/-- The nodes and the libraries that are active in the end, or the failure. -/
def finished : EStateM.Result CompileError Session (List Node) → Except CompileError (List Node × List Nat)
  | .ok nodes s => .ok (nodes, s.active)
  | .error e _ => .error e

/-- Parse tokens that end in a failure or not, with the given libraries active at the start. The answer has the
libraries that are active in the end. -/
def parsed (env : Environment) (active : List Nat) (tokens : List Token) (fault : Option CompileError) :
    Except CompileError (List Node × List Nat) :=
  finished ((env.parse []).run (Session.ofStream (.ofTokens tokens fault) active))

/-- Source is compiled by parsing its tokens. -/
theorem compile_eq_parsed (env : Environment) (base : List Nat) (source : String) :
    env.compile base source = (env.parsed base (Lexer.tokens source).1 (Lexer.tokens source).2).map (·.1) := by
  have hstart : Session.ofSource source base =
      Session.ofStream (.ofTokens (Lexer.tokens source).1 (Lexer.tokens source).2) base := rfl
  rw [compile, parsed, hstart]
  cases (env.parse []).run (Session.ofStream (.ofTokens (Lexer.tokens source).1 (Lexer.tokens source).2) base) <;>
    rfl

end Environment

namespace Boxes

end Boxes

end TextTemplate
