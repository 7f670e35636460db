import TextTemplate.Proofs.Compile.Directive

/-!
# The grammar of block tags

Which token lists are well-nested bodies, and the nodes that they stand for. Each block is matched by its own
end tag; `elif`, `else` and `empty` belong to the innermost block that allows them; what stands inside
`comment` and `verbatim` is not looked at. A derivation is written for a body with room for so many block tags
open at once, and carries the active libraries along, because a `load` tag changes them for what comes after
it.
-/

namespace TextTemplate.Grammar

variable (env : Environment)

/-- A token that opens the block tag of a directive, which the active libraries have. -/
def Opens (active : List Nat) (d : Directive) (t : Token) : Prop :=
  t.kind = .block ∧ env.directive? active t.tagName = some d

/-- What is derived of tokens: their nodes, and the active libraries before and after them. -/
abbrev Derives (Tree : Type) := List Nat → List Token → Tree → List Nat → Prop

/-- The items of a body: text, variables, comments and blocks. -/
inductive Items (Block : Derives (Option Node)) : Derives (List Node)
  | nil {a} : Items Block a [] [] a
  | text {a a' t ts nodes} (kind : t.kind = .text) (rest : Items Block a ts nodes a') :
    Items Block a (t :: ts) (.text t.content :: nodes) a'
  | output {a a' t ts e nodes} (kind : t.kind = .variable)
    (compiled : Pipeline.compile (env.filterLookup a) t.content = .ok e)
    (rest : Items Block a ts nodes a') : Items Block a (t :: ts) (.output e :: nodes) a'
  | comment {a a' t ts nodes} (kind : t.kind = .comment) (rest : Items Block a ts nodes a') :
    Items Block a (t :: ts) nodes a'
  | block {a a₁ a₂ u ts node nodes} (block : Block a u node a₁) (rest : Items Block a₁ ts nodes a₂) :
    Items Block a (u ++ ts) (node.toList ++ nodes) a₂

/-- The `elif` branches of an `if` tag. -/
inductive Elifs (Body : Derives (List Node)) : Derives (List (Condition × List Node))
  | nil {a} : Elifs Body a [] [] a
  | cons {a a₁ a₂ t u ts c nodes more} (named : t.isBlock "elif")
    (condition : HeaderReader.condition (env.filterLookup a) "elif" t.tagContent = .ok c)
    (body : Body a u nodes a₁) (rest : Elifs Body a₁ ts more a₂) :
    Elifs Body a (t :: u ++ ts) ((c, nodes) :: more) a₂

/-- The end of a block: its end tag, or a separator, a further body and the end tag. -/
inductive Ending (Body : Derives (List Node)) (separator : Token → Prop) (endTag : String) :
    Derives (Option (List Node))
  | without {a e} (named : e.isBlock endTag) : Ending Body separator endTag a [e] none a
  | withBody {a a' m e u nodes} (separates : separator m) (body : Body a u nodes a')
    (named : e.isBlock endTag) : Ending Body separator endTag a (m :: u ++ [e]) (some nodes) a'

/-- One block tag with everything that belongs to it. -/
inductive Block (Body : Derives (List Node)) : Derives (Option Node)
  | load {a a' t} (opens : Opens env a .load t) (reads : HeaderReader.load env a t.tagContent = .ok a') :
    Block Body a [t] none a'
  | comment {a t inside e} (opens : Opens env a .comment t)
    (inert : ∀ u ∈ inside, u.isBlock "endcomment" = false) (named : e.isBlock "endcomment") :
    Block Body a (t :: inside ++ [e]) none a
  | verbatim {a t inside e} (opens : Opens env a .verbatim t)
    (inert : ∀ u ∈ inside, u.isBlock "endverbatim" = false) (named : e.isBlock "endverbatim") :
    Block Body a (t :: inside ++ [e]) (some (.text (String.join (inside.map Token.raw)))) a
  | conditional {a a₁ a₂ a₃ t u v w c nodes more otherwise} (opens : Opens env a .conditional t)
    (reads : HeaderReader.condition (env.filterLookup a) "if" t.tagContent = .ok c)
    (body : Body a u nodes a₁) (elifs : Elifs env Body a₁ v more a₂)
    (ending : Ending Body (fun m => m.isBlock "else" ∧ m.tagContent = "") "endif" a₂ w otherwise a₃) :
    Block Body a (t :: u ++ v ++ w) (some (.choice ((c, nodes) :: more) otherwise)) a₃
  | loop {a a₁ a₂ t u w header sequence nodes empty} (opens : Opens env a .loop t)
    (reads : HeaderReader.loop (env.filterLookup a) t.tagContent = .ok (header, sequence))
    (body : Body a u nodes a₁) (ending : Ending Body (·.isBlock "empty") "endfor" a₁ w empty a₂) :
    Block Body a (t :: u ++ w)
      (some (.loop header.names sequence header.reversed nodes (empty.getD []))) a₂
  | binding {a a' t u e found nodes} (opens : Opens env a .binding t)
    (reads : HeaderReader.bindings (env.filterLookup a) t.tagContent = .ok found)
    (body : Body a u nodes a') (named : e.isBlock "endwith") :
    Block Body a (t :: u ++ [e]) (some (.binding found nodes)) a'
  | equality {a a₁ a₂ t u w left right nodes other} (opens : Opens env a .equality t)
    (reads : HeaderReader.operands (env.filterLookup a) "ifequal" t.tagContent = .ok (left, right))
    (body : Body a u nodes a₁) (ending : Ending Body (·.isBlock "else") "endifequal" a₁ w other a₂) :
    Block Body a (t :: u ++ w) (some (.equality false left right nodes (other.getD []))) a₂
  | inequality {a a₁ a₂ t u w left right nodes other} (opens : Opens env a .inequality t)
    (reads : HeaderReader.operands (env.filterLookup a) "ifnotequal" t.tagContent = .ok (left, right))
    (body : Body a u nodes a₁) (ending : Ending Body (·.isBlock "else") "endifnotequal" a₁ w other a₂) :
    Block Body a (t :: u ++ w) (some (.equality true left right nodes (other.getD []))) a₂
  | firstOf {a t found} (opens : Opens env a .firstOf t)
    (reads : HeaderReader.candidates (env.filterLookup a) t.tagContent = .ok found) :
    Block Body a [t] (some (.firstTrue found)) a
  | symbol {a t s} (opens : Opens env a .symbol t) (reads : HeaderReader.symbol t.tagContent = .ok s) :
    Block Body a [t] (some (.text s)) a
  | spaceless {a a' t u e nodes} (opens : Opens env a .spaceless t) (body : Body a u nodes a')
    (named : e.isBlock "endspaceless") : Block Body a (t :: u ++ [e]) (some (.spaceless nodes)) a'
  | filtered {a a' t u e calls nodes} (opens : Opens env a .filtered t)
    (reads : Pipeline.compileChain (env.filterLookup a) t.tagContent = .ok calls)
    (body : Body a u nodes a') (named : e.isBlock "endfilter") :
    Block Body a (t :: u ++ [e]) (some (.filtered calls nodes)) a'

/-- A body in which at most `room` block tags are open at once. -/
def Body : (room : Nat) → Derives (List Node)
  | 0 => Items env fun _ _ _ _ => False
  | room + 1 => Items env (Block env (Body room))

end TextTemplate.Grammar
