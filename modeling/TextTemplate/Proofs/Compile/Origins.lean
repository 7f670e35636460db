import TextTemplate.Proofs.Compile.OpaqueRegion
import TextTemplate.Proofs.Compile.WellNested
import TextTemplate.Proofs.Node.Walk

/-!
# Where nodes come from

Each node of a template comes from one token: a text, a variable, or the tag that opens its block. The other tokens are
comments, separators, end tags, `load` tags and what stands inside `comment` and `verbatim`. The nodes of the tree are
listed in the order of the tokens that they come from, one for each.
-/

namespace TextTemplate

/-- Whether there is a node for the block. -/
def Directive.hasNode : Directive → Bool
  | load | comment => false
  | _ => true

namespace Token

/-- The directive that the token opens, if its name is that of one. -/
def directive? (t : Token) : Option Directive := if t.kind = .block then Directive.ofName? t.tagName else none

/-- Whether a node comes from the token, where it is not kept from the compiler. -/
def isOrigin (t : Token) : Bool := t.kind == .text || t.kind == .variable || t.directive?.any Directive.hasNode

/-- The end tag up to which all tokens behind this one are kept from the compiler. -/
def regionEnd? (t : Token) : Option String := (t.directive?.filter Directive.isOpaque).map Directive.endTag

/-- The tokens that nodes come from, each with all tokens after it. Inside a region that is kept from the compiler, up
to its end tag, there are none. -/
def origins : (region : Option String) → List Token → List (List Token)
  | _, [] => []
  | some endTag, t :: rest => origins (if t.isBlock endTag then none else some endTag) rest
  | none, t :: rest => if t.isOrigin then (t :: rest) :: origins t.regionEnd? rest else origins t.regionEnd? rest

/-- Origins are in the order of the tokens. -/
theorem origins_sublist (region : Option String) (tokens : List Token) :
    (origins region tokens).Sublist tokens.tails := by
  induction tokens generalizing region with
  | nil => exact List.nil_sublist _
  | cons t rest ih =>
    rw [List.tails_cons]
    cases region with
    | some endTag => exact (ih _).cons _
    | none =>
      rw [origins]
      split
      · exact (ih _).cons_cons _
      · exact (ih _).cons _

/-- The tokens up to the end of a region are passed over. -/
theorem origins_region {endTag : String} {inside : List Token} {e : Token}
    (hinside : ∀ u ∈ inside, u.isBlock endTag = false) (hend : e.isBlock endTag) (rest : List Token) :
    origins (some endTag) (inside ++ e :: rest) = origins none rest := by
  induction inside with
  | nil => rw [List.nil_append, origins, if_pos hend]
  | cons u inside ih =>
    obtain ⟨hu, hinside⟩ := List.forall_mem_cons.mp hinside
    rw [List.cons_append, origins, if_neg (by simp [hu]), ih hinside]

theorem directive?_of_opens {env : Environment} {active : List Nat} {d : Directive} {t : Token}
    (h : Grammar.Opens env active d t) : t.directive? = some d := by
  rw [directive?, if_pos h.1, Directive.ofName?_eq_some_iff]
  exact Environment.directive?_name h.2

theorem isOrigin_of_opens {env : Environment} {active : List Nat} {d : Directive} {t : Token}
    (h : Grammar.Opens env active d t) : t.isOrigin = d.hasNode := by
  simp [isOrigin, h.1, directive?_of_opens h]

theorem regionEnd?_of_opens {env : Environment} {active : List Nat} {d : Directive} {t : Token}
    (h : Grammar.Opens env active d t) : t.regionEnd? = if d.isOpaque then some d.endTag else none := by
  rw [regionEnd?, directive?_of_opens h, Option.filter_some]
  split <;> rfl

/-- A token that opens a directive. -/
theorem origins_of_opens {env : Environment} {active : List Nat} {d : Directive} {t : Token}
    (h : Grammar.Opens env active d t) (rest : List Token) : origins none (t :: rest) =
      (if d.hasNode then [t :: rest] else []) ++ origins (if d.isOpaque then some d.endTag else none) rest := by
  rw [origins, isOrigin_of_opens h, regionEnd?_of_opens h]
  split <;> rfl

/-- A token that is no text, variable or opening tag is passed over. -/
theorem origins_of_separator {t : Token} (htext : t.kind ≠ .text) (hvariable : t.kind ≠ .variable)
    (hdirective : t.directive? = none) (rest : List Token) : origins none (t :: rest) = origins none rest := by
  rw [origins, if_neg (by simp [isOrigin, htext, hvariable, hdirective]), regionEnd?, hdirective]
  rfl

end Token

namespace Grammar

open Token

variable {env : Environment} {t : Token} {u v : List Token} {n : Node} {found found' : List Node}

/-- The tokens begin with ones that the node alone is derived of. -/
def StandsFor (env : Environment) (tokens : List Token) (n : Node) : Prop :=
  ∃ room a u a', u <+: tokens ∧ Body env room a u [n] a'

/-- A block is a body of its own. -/
theorem body_of_block {room : Nat} {a a' : List Nat} (h : Block env (Body env room) a u (some n) a') :
    Body env (room + 1) a u [n] a' := by
  have hbody : Body env (room + 1) a (u ++ []) ([n] ++ []) a' := .block h .nil
  rwa [List.append_nil, List.append_nil] at hbody

/-- Whatever follows the tokens, these nodes come from those of them that nodes come from, in the same order. -/
def Yields (env : Environment) (u : List Token) (found : List Node) : Prop :=
  ∀ rest, ∃ first, origins none (u ++ rest) = first ++ origins none rest ∧ List.Forall₂ (StandsFor env) first found

namespace Yields

theorem nil : Yields env [] [] := fun _ => ⟨[], rfl, .nil⟩

theorem append (h : Yields env u found) (h' : Yields env v found') : Yields env (u ++ v) (found ++ found') := by
  intro rest
  obtain ⟨first, hfirst, hfound⟩ := h (v ++ rest)
  obtain ⟨second, hsecond, hfound'⟩ := h' rest
  exact ⟨first ++ second, by rw [List.append_assoc, hfirst, hsecond, List.append_assoc], List.rel_append hfound hfound'⟩

/-- A token that is passed over. -/
theorem skip (ht : ∀ rest, origins none (t :: rest) = origins none rest) (h : Yields env u found) :
    Yields env (t :: u) found := by
  intro rest
  obtain ⟨first, hfirst, hfound⟩ := h rest
  exact ⟨first, (ht _).trans hfirst, hfound⟩

/-- A token that a node comes from: the first of those that the node is derived of. -/
theorem cons {room : Nat} {a a' : List Nat} (horigin : t.isOrigin = true) (hregion : t.regionEnd? = none)
    (hderived : Body env room a u [n] a') (hstart : u <+: t :: v) (h : Yields env v found) :
    Yields env (t :: v) (n :: found) := by
  intro rest
  obtain ⟨first, hfirst, hfound⟩ := h rest
  refine ⟨(t :: v ++ rest) :: first, ?_, .cons ⟨room, a, u, a', ?_, hderived⟩ hfound⟩
  · rw [List.cons_append, origins, if_pos horigin, hregion, hfirst, List.cons_append]
  · exact hstart.trans (List.prefix_append _ rest)

/-- A text or a variable. -/
theorem item {room : Nat} {a a' : List Nat} (hkind : t.kind = .text ∨ t.kind = .variable)
    (hderived : Body env room a [t] [n] a') (h : Yields env u found) : Yields env (t :: u) (n :: found) := by
  refine h.cons ?_ ?_ hderived (List.prefix_append [t] u)
  · rcases hkind with hkind | hkind <;> simp [isOrigin, hkind]
  · rcases hkind with hkind | hkind <;> simp [regionEnd?, directive?, hkind]

/-- A block whose bodies the compiler reads. -/
theorem block {room : Nat} {a a' : List Nat} {d : Directive} (hopens : Opens env a d t) (hnode : d.hasNode = true)
    (hcompiles : d.isOpaque = false) (hderived : Block env (Body env room) a (t :: u) (some n) a')
    (h : Yields env u found) : Yields env (t :: u) (n :: found) := by
  have hregion : t.regionEnd? = none := by rw [regionEnd?_of_opens hopens, if_neg (by simp [hcompiles])]
  exact h.cons ((isOrigin_of_opens hopens).trans hnode) hregion (body_of_block hderived) (List.prefix_refl _)

end Yields

/-- The nodes of each body come from its tokens. -/
def BodiesYield (env : Environment) (B : Derives (List Node)) : Prop :=
  ∀ {a u nodes a'}, B a u nodes a' → Yields env u (Node.allDescendants nodes)

theorem origins_of_isBlock {name : String} (hname : Directive.ofName? name = none) (ht : t.isBlock name)
    (rest : List Token) : origins none (t :: rest) = origins none rest := by
  obtain ⟨hkind, htag⟩ := Token.isBlock_iff.mp ht
  refine origins_of_separator (by simp [hkind]) (by simp [hkind]) ?_ rest
  rw [directive?, if_pos hkind, htag, hname]

section

variable {B : Derives (List Node)} (hB : BodiesYield env B)

include hB

theorem BodiesYield.elifs {a a' : List Nat} {more : List (Condition × List Node)} (h : Elifs env B a u more a') :
    Yields env u (Node.branchDescendants more) := by
  induction h with
  | nil => exact .nil
  | cons named _ body _ ih =>
    rw [Node.branchDescendants]
    exact ((hB body).append ih).skip (origins_of_isBlock (by decide) named)

/-- A body and the end tag behind it. -/
theorem BodiesYield.closed {endTag : String} (hend : Directive.ofName? endTag = none) {a a' : List Nat}
    {nodes : List Node} (body : B a u nodes a') {e : Token} (named : e.isBlock endTag) :
    Yields env (u ++ [e]) (Node.allDescendants nodes) := by
  simpa using (hB body).append (Yields.nil.skip (origins_of_isBlock hend named))

theorem BodiesYield.ending {separator : Token → Prop} {name endTag : String} {a a' : List Nat}
    {other : Option (List Node)} (hseparator : ∀ m, separator m → m.isBlock name)
    (hname : Directive.ofName? name = none) (hend : Directive.ofName? endTag = none)
    (h : Ending B separator endTag a u other a') : Yields env u (Node.optionDescendants other) := by
  cases h with
  | without named => exact Yields.nil.skip (origins_of_isBlock hend named)
  | withBody separates body named =>
    rw [Node.optionDescendants]
    exact (hB.closed hend body named).skip (origins_of_isBlock hname (hseparator _ separates))

end

/-- The nodes of a block come from its tokens if those of its bodies do. -/
theorem BodiesYield.block {room : Nat} (hB : BodiesYield env (Body env room)) {a a' : List Nat} {node : Option Node}
    (h : Block env (Body env room) a u node a') : Yields env u (node.toList.flatMap Node.descendants) := by
  have hblock := h
  cases h with
  | load opens => exact Yields.nil.skip (origins_of_opens opens)
  | @comment _ t inside e opens inert named =>
    refine fun rest => ⟨[], ?_, .nil⟩
    rw [List.append_assoc, List.cons_append, origins_of_opens opens]
    exact origins_region inert named rest
  | @verbatim _ t inside e opens inert named =>
    rw [Option.toList_some, List.flatMap_singleton, Node.descendants]
    refine fun rest => ⟨[t :: inside ++ [e] ++ rest], ?_, .cons ?_ .nil⟩
    · rw [List.append_assoc, List.cons_append, origins_of_opens opens]
      exact congrArg _ (origins_region inert named rest)
    · exact ⟨room + 1, a, t :: inside ++ [e], a, List.prefix_append _ rest, body_of_block hblock⟩
  | conditional opens reads body elifs ending =>
    rw [Option.toList_some, List.flatMap_singleton, Node.descendants, Node.branchDescendants]
    exact (((hB body).append (hB.elifs elifs)).append
      (hB.ending (fun _ h => h.1) (by decide) (by decide) ending)).block opens rfl rfl hblock
  | loop opens reads body ending =>
    rw [Option.toList_some, List.flatMap_singleton, Node.descendants, Node.allDescendants_getD]
    exact ((hB body).append (hB.ending (fun _ h => h) (by decide) (by decide) ending)).block opens rfl rfl hblock
  | equality opens reads body ending | inequality opens reads body ending =>
    rw [Option.toList_some, List.flatMap_singleton, Node.descendants, Node.allDescendants_getD]
    exact ((hB body).append (hB.ending (fun _ h => h) (by decide) (by decide) ending)).block opens rfl rfl hblock
  | firstOf opens | symbol opens =>
    rw [Option.toList_some, List.flatMap_singleton, Node.descendants]
    exact Yields.nil.block opens rfl rfl hblock
  | binding opens _ body named | spaceless opens body named | filtered opens _ body named =>
    rw [Option.toList_some, List.flatMap_singleton, Node.descendants]
    exact (hB.closed (by decide) body named).block opens rfl rfl hblock

/-- The nodes of a body come from its tokens if those of its blocks do. -/
theorem yields_items {Blk : Derives (Option Node)}
    (hBlk : ∀ {a u node a'}, Blk a u node a' → Yields env u (node.toList.flatMap Node.descendants)) :
    BodiesYield env (Items env Blk) := by
  intro a u nodes a' h
  induction h with
  | nil => exact .nil
  | text kind _ ih =>
    rw [Node.allDescendants, Node.descendants]
    exact ih.item (.inl kind) (show Body env 0 a _ _ a from .text kind .nil)
  | output kind compiled _ ih =>
    rw [Node.allDescendants, Node.descendants]
    exact ih.item (.inr kind) (show Body env 0 _ _ _ _ from .output kind compiled .nil)
  | comment kind _ ih =>
    exact ih.skip (origins_of_separator (by simp [kind]) (by simp [kind]) (by simp [directive?, kind]))
  | block block _ ih =>
    simpa only [Node.allDescendants_eq, List.flatMap_append] using (hBlk block).append ih

/-- The nodes of a body come from its tokens, however deep its blocks are nested. -/
theorem yields_body (env : Environment) (room : Nat) : BodiesYield env (Body env room) := by
  induction room with
  | zero => exact yields_items fun h => h.elim
  | succ room ih => exact yields_items fun h => BodiesYield.block ih h

end Grammar

/-- What a part of a list is related to is a part of what the list is related to. -/
theorem exists_sublist_of_forall₂ {α β : Type} {R : α → β → Prop} {as : List α} {bs bs' : List β}
    (h : List.Forall₂ R as bs) (hpart : bs'.Sublist bs) : ∃ as' : List α, as'.Sublist as ∧ List.Forall₂ R as' bs' := by
  induction hpart generalizing as with
  | slnil => exact ⟨[], List.nil_sublist _, .nil⟩
  | cons b _ ih =>
    obtain ⟨a, as, -, has, rfl⟩ := List.forall₂_cons_right_iff.mp h
    obtain ⟨as', hpart, hrelated⟩ := ih has
    exact ⟨as', hpart.cons a, hrelated⟩
  | cons_cons b _ ih =>
    obtain ⟨a, as, hab, has, rfl⟩ := List.forall₂_cons_right_iff.mp h
    obtain ⟨as', hpart, hrelated⟩ := ih has
    exact ⟨a :: as', hpart.cons_cons a, .cons hab hrelated⟩

namespace Environment

open Node Grammar

variable {env : Environment}

/-- In the tree of a source that compiles with the standard tags, all nodes are listed by their places, each place once,
a node before its bodies and these in the order of the source. In the same order, one each, they are those that the
tokens from each origin on stand for. The nodes of a kind are those of the list, collected on a walk from children to
children. Rendering comes to no node that is not in the list. -/
theorem compile_lists_nodes (henv : env.StandardTagsOnly) {base : List Nat} {source : String} {nodes : List Node}
    (h : env.compile base source = .ok nodes) :
    let tokens := (Lexer.tokens source).1
    (Token.origins none tokens).Sublist tokens.tails ∧
      List.Forall₂ (StandsFor env) (Token.origins none tokens) (allDescendants nodes) ∧
      (∃ places, Enumerates (at? · nodes) places (allDescendants nodes)) ∧
      (allDescendants nodes = nodes.flatMap fun n => n :: n.children.flatMap allDescendants) ∧
      (∀ n, Reaches nodes n → n ∈ allDescendants nodes) ∧
      ∀ kind, (∃ origins, origins.Sublist (Token.origins none tokens) ∧
          List.Forall₂ (StandsFor env) origins (ofKind kind nodes)) ∧
        (∃ places, Enumerates (fun place => (at? place nodes).filter (·.kind == kind)) places (ofKind kind nodes)) ∧
        ofKind kind nodes =
          nodes.flatMap fun n => (if n.kind == kind then [n] else []) ++ n.children.flatMap (ofKind kind) := by
  intro tokens
  obtain ⟨-, active, hbody⟩ := body_of_compile_eq_ok henv h
  obtain ⟨places, hplaces⟩ := exists_enumerates nodes
  have horigins : List.Forall₂ (StandsFor env) (Token.origins none tokens) (allDescendants nodes) := by
    obtain ⟨first, hfirst, hfound⟩ := yields_body env maxOpenTags hbody []
    rw [List.append_nil, Token.origins, List.append_nil] at hfirst
    exact hfirst ▸ hfound
  refine ⟨Token.origins_sublist none tokens, horigins, ⟨places, hplaces⟩, ?_,
    fun n => mem_allDescendants_of_reaches, fun kind => ⟨?_, ⟨_, hplaces.filter _⟩, filter_allDescendants _ nodes⟩⟩
  · simpa using filter_allDescendants (fun _ => true) nodes
  · exact exists_sublist_of_forall₂ horigins List.filter_sublist

/-- Fail at a text. -/
def failAt (s : String) : Node → RenderM Unit
  | .text t => if t = s then throw .notText else pure ()
  | _ => pure ()

/-- Whether rendering works, and no longer does if it fails at a text. -/
def breaksAt (s : String) (state : RenderState) (nodes : List Node) : Bool :=
  match renderAll nodes state, renderAllVisiting (failAt s) nodes state with
  | .ok .., .error .. => true
  | _, _ => false

theorem reaches_of_breaksAt {s : String} {state : RenderState} {nodes : List Node}
    (h : breaksAt s state nodes = true) : Reaches nodes (.text s) := by
  refine ⟨failAt s, state, fun m hm => ?_, fun heq => ?_⟩
  · cases m with
    | text t => exact if_neg fun ht => hm (congrArg Node.text ht)
    | _ => rfl
  · rw [breaksAt, heq] at h
    cases hrun : renderAll nodes state <;> simp [hrun] at h

/-- A loop with a comment in its body, and with branches in its empty part. -/
def nestedSource : String :=
  "\x7b% for i in l %\x7dx\x7b% comment %\x7dy\x7b% endcomment %\x7d\x7b% empty %\x7d" ++
    "\x7b% if l %\x7dt\x7b% else %\x7df\x7b% endif %\x7d\x7b% endfor %\x7d"

/-- The texts are those of the body, of the first branch and of the second one, to which rendering comes without data;
the comment has none. -/
theorem compile_lists_nodes_nested : (standard .latest).StandardTagsOnly ∧
    ∃ nodes, (standard .latest).compile [0, 1] nestedSource = .ok nodes ∧
      textsShown (ofKind .text nodes) = "NodeList([TextNode(text='x'), TextNode(text='t'), TextNode(text='f')])" ∧
      List.Forall₂ (StandsFor (standard .latest)) (Token.origins none (Lexer.tokens nestedSource).1)
        (allDescendants nodes) ∧
      (∃ places, Enumerates (at? · nodes) places (allDescendants nodes)) ∧
      Reaches nodes (.text "f") ∧ .text "f" ∈ allDescendants nodes := by
  have henv := standard_standardTagsOnly .latest
  have hlisted : ((standard .latest).compile [0, 1] nestedSource).toOption.map (fun nodes =>
      (textsShown (ofKind .text nodes), breaksAt "f" ⟨.ofScope [] "", .empty 0⟩ nodes)) =
        some ("NodeList([TextNode(text='x'), TextNode(text='t'), TextNode(text='f')])", true) := by decide +kernel
  cases hnodes : (standard .latest).compile [0, 1] nestedSource with
  | error e =>
    rw [hnodes] at hlisted
    cases hlisted
  | ok nodes =>
    rw [hnodes] at hlisted
    obtain ⟨hshown, hbreaks⟩ := Prod.mk.inj (Option.some.inj hlisted)
    obtain ⟨-, horigins, hplaces, -, hreached, -⟩ := compile_lists_nodes henv hnodes
    have hreaches := reaches_of_breaksAt hbreaks
    exact ⟨henv, nodes, rfl, hshown, horigins, hplaces, hreaches, hreached _ hreaches⟩

end Environment

end TextTemplate
