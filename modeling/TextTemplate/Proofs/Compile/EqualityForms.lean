import TextTemplate.Proofs.Compile.Rebasing
import TextTemplate.Proofs.Compile.Sections
import TextTemplate.Proofs.Condition.Evaluation
import TextTemplate.Proofs.Condition.Printing

/-!
# Comparing by `ifequal` and by `if`

Two operands are compared by `ifequal` or `ifnotequal`, or by `==` or `!=` in the condition of an `if` tag. Either block
has two bodies with `else` between them, and the bodies are closed in themselves, so they are compiled in one block as
they are in the other. The operands are resolved in the same order and compared in the same way, but for values that
cannot be compared: `if` takes them for values that are not related as asked, and `ifequal` fails over them.
-/

namespace TextTemplate

open Progress Segment

variable {env : Environment} {base : List Nat}

/-! ## Comparing -/

/-- The tag that renders its first body if its operands are equal, or if they are not. -/
def equalityTag (negated : Bool) : String := if negated then "ifnotequal" else "ifequal"

/-- The operator that compares in the same way. -/
def equalityOperator (negated : Bool) : Comparison := if negated then .unequal else .equal

/-- The values of two operands cannot be compared, which shows in the state `s'`. -/
def Incomparable (left right : Expression) (s s' : RenderState) : Prop :=
  ∃ v s₁ w, left.resolve .ignore s = .ok v s₁ ∧ right.resolve .ignore s₁ = .ok w s' ∧
    Value.equals (v.settle s'.store) (w.settle s'.store) = none

theorem Value.isEqual_run (v w : Value) (st : Store) :
    v.isEqual w st = match equals (v.settle st) (w.settle st) with
      | some same => .ok same st
      | Option.none => .error .unsupportedKind st := by
  have hcompare : v.isEqual w st = EvalM.ofComparison (equals (v.settle st) (w.settle st)) st := rfl
  rw [hcompare]
  cases equals (v.settle st) (w.settle st) <;> rfl

/-- In a condition, values that cannot be compared are neither equal nor unequal. -/
theorem Comparison.holds_equality (negated : Bool) (v w : Value) (st : Store) :
    (equalityOperator negated).holds v w st = match Value.equals (v.settle st) (w.settle st) with
      | some same => .ok (same != negated) st
      | none => .ok false st := by
  have htest : (equalityOperator negated).test v w st = (do return (← v.isEqual w) != negated) st := by
    cases negated with
    | false => simp [equalityOperator, test]
    | true => simp [equalityOperator, test]
  rw [holds, htest, run_bind, v.isEqual_run]
  cases Value.equals (v.settle st) (w.settle st) <;> rfl

namespace Node

variable (negated : Bool) (left right : Expression) (whenTrue whenFalse : List Node) {s s' : RenderState}

theorem renderAll_singleton (n : Node) : renderAll [n] = n.render := by
  simp [renderAll]

/-- The node that `ifequal` compiles to fails over values that cannot be compared, and the node of the comparison
renders its `else` branch. -/
theorem render_incomparable (h : Incomparable left right s s') :
    renderAll [.equality negated left right whenTrue whenFalse] s = .error .unsupportedKind s' ∧
      renderAll [.choice [(.comparison left (equalityOperator negated) right, whenTrue)] (some whenFalse)] s =
        renderAll whenFalse s' := by
  obtain ⟨v, s₁, w, hleft, hright, hnone⟩ := h
  constructor
  · rw [renderAll_singleton, render, operandsEqual, run_bind, run_bind_ok hleft, run_bind_ok hright,
      RenderM.onValues, v.isEqual_run, hnone]
  · have heval : (Condition.comparison left (equalityOperator negated) right).eval s = .ok false s' := by
      rw [Condition.eval_comparison, hleft]
      dsimp only
      rw [hright]
      dsimp only
      rw [RenderM.onValues, Comparison.holds_equality, hnone]
    rw [renderAll_singleton, render, renderBranches, run_bind_ok heval]
    rfl

/-- Otherwise the two nodes do the same. -/
theorem render_comparable (h : ∀ s', ¬ Incomparable left right s s') :
    renderAll [.equality negated left right whenTrue whenFalse] s =
      renderAll [.choice [(.comparison left (equalityOperator negated) right, whenTrue)] (some whenFalse)] s := by
  rw [renderAll_singleton, renderAll_singleton, render, render, renderBranches, run_bind, run_bind, operandsEqual,
    Condition.eval_comparison, run_bind]
  cases hleft : left.resolve .ignore s with
  | error failure s' => rfl
  | ok v s₁ =>
    dsimp only
    rw [run_bind]
    cases hright : right.resolve .ignore s₁ with
    | error failure s' => rfl
    | ok w s₂ =>
      dsimp only
      rw [RenderM.onValues, RenderM.onValues, v.isEqual_run, Comparison.holds_equality]
      cases hequals : Value.equals (v.settle s₂.store) (w.settle s₂.store) with
      | none => exact absurd ⟨v, s₁, w, hleft, hright, hequals⟩ (h s₂)
      | some same => rfl

end Node

/-! ## Blocks with two bodies -/

/-- How a block with `else` between two bodies goes on from one to the other, up to its end tag. -/
structure Halves (endTag : String) where
  isTagName : IsTagName endTag
  percent : '%' ∉ endTag.toList
  first : Stage
  second : List Node → Stage
  node : List Node → List Node → Node
  compiles_first : first.isOpaque = false
  compiles_second (whenTrue : List Node) : (second whenTrue).isOpaque = false
  awaits_else : "else" ∈ first.awaited
  awaits_end (whenTrue : List Node) : endTag ∈ (second whenTrue).awaited
  goes_on (lookup : FilterLookup) (whenTrue : List Node) {t : Token} (h : t.Heads "else" "") :
    first.resume lookup whenTrue t = .ok (.again (second whenTrue))
  ends (lookup : FilterLookup) (whenTrue whenFalse : List Node) (t : Token) :
    (second whenTrue).resume lookup whenFalse t = .ok (.closed (some (node whenTrue whenFalse)))

namespace Halves

/-- The bodies of an `ifequal` or `ifnotequal` block. -/
def equality (negated : Bool) (left right : Expression) : Halves ("end" ++ equalityTag negated) where
  isTagName := by cases negated <;> decide
  percent := by cases negated <;> decide
  first := .whenTrue negated left right
  second := .whenFalse negated left right
  node := .equality negated left right
  compiles_first := rfl
  compiles_second _ := rfl
  awaits_else := by cases negated <;> exact List.mem_cons_self
  awaits_end _ := by cases negated <;> exact List.mem_cons_self
  goes_on _ _ {t} h := by rw [Stage.resume, if_pos h.tagName]
  ends _ _ _ _ := rfl

/-- The bodies of an `if` block without `elif`. -/
def choice (c : Condition) : Halves "endif" where
  isTagName := by decide
  percent := by decide
  first := .branch [] c
  second whenTrue := .otherwise [(c, whenTrue)]
  node whenTrue whenFalse := .choice [(c, whenTrue)] (some whenFalse)
  compiles_first := rfl
  compiles_second _ := rfl
  awaits_else := by simp [Stage.awaited]
  awaits_end _ := by simp [Stage.awaited]
  goes_on _ _ {t} h := by simp [Stage.resume, h.tagName, h.tagContent]
  ends _ _ _ _ := rfl

variable {endTag endTag' : String} {active : List Nat} {o : Token} {first second : List Segment}

/-- After the first body comes the second one. -/
theorem step_else (H : Halves endTag) (env : Environment) (active : List Nat) (whenTrue : List Node) (o : Token) :
    step env ⟨active, whenTrue, [⟨o, H.first, []⟩]⟩ ((tag "else" "").token 1) =
      .ok ⟨active, [], [⟨o, H.second whenTrue, []⟩]⟩ := by
  have hheads : ((tag "else" "").token 1).Heads "else" "" := heads_bare (by decide) 1
  rw [step_awaited env active whenTrue _ [] hheads.isBlock H.awaits_else]
  dsimp only
  rw [H.goes_on _ _ hheads]

/-- After the second body comes the end tag. -/
theorem step_end (H : Halves endTag) (env : Environment) (active : List Nat) (whenTrue whenFalse : List Node)
    (o : Token) :
    step env ⟨active, whenFalse, [⟨o, H.second whenTrue, []⟩]⟩ ((tag endTag "").token 1) =
      .ok ⟨active, [H.node whenTrue whenFalse], []⟩ := by
  rw [step_awaited env active whenFalse _ [] (heads_bare H.isTagName 1).isBlock (H.awaits_end whenTrue)]
  dsimp only
  rw [H.ends]
  rfl

/-- What stands after the opening tag of such a block. -/
def inside (first second : List Segment) (endTag : String) : List Segment :=
  first ++ tag "else" "" :: (second ++ [tag endTag ""])

/-- Bodies that are closed in themselves are compiled in one such block as in any other. -/
theorem run_inside (H : Halves endTag) (hfirst : Waiting.Closes [] (onOneLine first))
    (hsecond : Waiting.Closes [] (onOneLine second)) {p : Progress}
    (h : run env (onOneLine (inside first second endTag)) ⟨active, [], [⟨o, H.first, []⟩]⟩ = .ok p) :
    ∃ whenTrue whenFalse, p = ⟨p.active, [H.node whenTrue whenFalse], []⟩ ∧
      ∀ {endTag'} (H' : Halves endTag') (o' : Token),
        run env (onOneLine (inside first second endTag')) ⟨active, [], [⟨o', H'.first, []⟩]⟩ =
          .ok ⟨p.active, [H'.node whenTrue whenFalse], []⟩ := by
  have hcompiles {stage : Stage} (hstage : stage.isOpaque = false) (o : Token) :
      Compiles [⟨o, stage, []⟩] := by simpa [Compiles] using hstage
  rw [inside, onOneLine_append, run_append] at h
  obtain ⟨⟨active₁, whenTrue, blocks₁⟩, hrun₁, h⟩ := bind_eq_ok_iff.mp h
  obtain ⟨rfl, hother₁⟩ := run_body_rebased hfirst (hcompiles H.compiles_first o) hrun₁
  rw [onOneLine_cons, run_cons_ok (H.step_else env active₁ whenTrue o), onOneLine_append, run_append] at h
  obtain ⟨⟨active₂, whenFalse, blocks₂⟩, hrun₂, h⟩ := bind_eq_ok_iff.mp h
  obtain ⟨rfl, hother₂⟩ := run_body_rebased hsecond (hcompiles (H.compiles_second whenTrue) o) hrun₂
  rw [onOneLine_cons, run_cons_ok (H.step_end env active₂ whenTrue whenFalse o)] at h
  cases h
  refine ⟨whenTrue, whenFalse, rfl, fun H' o' => ?_⟩
  have hrun₁' := (hother₁ [⟨o', H'.first, []⟩] (hcompiles H'.compiles_first o')).eq_ok (lt_irrefl _)
  have hrun₂' :=
    (hother₂ [⟨o', H'.second whenTrue, []⟩] (hcompiles (H'.compiles_second whenTrue) o')).eq_ok (lt_irrefl _)
  rw [inside, onOneLine_append, run_append_ok hrun₁', onOneLine_cons,
    run_cons_ok (H'.step_else env active₁ whenTrue o'), onOneLine_append, run_append_ok hrun₂', onOneLine_cons,
    run_cons_ok (H'.step_end env active₂ whenTrue whenFalse o')]
  rfl

end Halves

/-! ## Opening tags -/

/-- The text of an operand that can stand in either form: one expression without blanks outside its strings, without a
closing mark, and none of the words that conditions keep for themselves. -/
structure IsComparand (lookup : FilterLookup) (source : String) (e : Expression) : Prop where
  compiles : Pipeline.compile lookup source = .ok e
  blankFree : Text.BlankFree source.toList
  unmarked : ¬ Lexer.closer .block <:+: source.toList
  noKeyword : source ∉ ["and", "or", "not", "in"]

namespace IsComparand

variable {lookup : FilterLookup} {a b : String} {left right : Expression}

theorem solid (h : IsComparand lookup a left) : Bits.Solid a.toList ∧ a ≠ "" := by
  obtain ⟨-, hne, -, hsolid⟩ := Pipeline.compile_eq_ok h.compiles
  exact ⟨hsolid h.blankFree, hne⟩

theorem lone (h : IsComparand lookup a left) : ConditionToken.Lone a := by
  obtain ⟨operand, steps, ⟨rest, hsource, hoperand, hsteps⟩, -⟩ := Pipeline.exists_reads_of_compile h.compiles
  have hunbroken : ConditionToken.Unbroken a.toList :=
    (hsource ▸ hoperand.continues hsteps.continues : Pipeline.Continues a.toList) h.blankFree
  have hkeyword : ConditionToken.isKeyword a = false := by
    rw [Bool.eq_false_iff, ne_eq, ConditionToken.isKeyword_iff]
    exact h.noKeyword
  exact ⟨hunbroken, h.solid.2, hkeyword⟩

/-- Two operands with blanks between them are read from the header of `ifequal`. -/
theorem operands (ha : IsComparand lookup a left) (hb : IsComparand lookup b right) (name : String) :
    HeaderReader.operands lookup name (a ++ " " ++ b) = .ok (left, right) := by
  have hsolid : ∀ bit ∈ [a, b], Bits.Solid bit.toList ∧ bit ≠ "" :=
    List.forall_mem_cons.mpr ⟨ha.solid, by simpa using hb.solid⟩
  have hbits := Bits.ofString_intercalate hsolid
  have hjoin : " ".intercalate [a, b] = a ++ " " ++ b := by simp [String.intercalate_cons_cons]
  rw [hjoin] at hbits
  rw [HeaderReader.operands_pair hbits, ha.compiles, hb.compiles]
  rfl

/-- Two operands with an operator between them are read from the header of `if`. -/
theorem condition (ha : IsComparand lookup a left) (hb : IsComparand lookup b right) (negated : Bool) :
    HeaderReader.condition lookup "if" (a ++ " " ++ (equalityOperator negated).symbol ++ " " ++ b) =
      .ok (.comparison left (equalityOperator negated) right) := by
  have hspelled : Comparison.ofSymbol? (equalityOperator negated).symbol = some (equalityOperator negated) := by
    cases negated <;> decide
  have hderives : Condition.Grammar.Derives .orExpr
      [⟨.operand, a, 0⟩, ⟨.operator, (equalityOperator negated).symbol, 0⟩, ⟨.operand, b, 0⟩]
      (.comparison a (equalityOperator negated) b) :=
    .orFirst (.andFirst (.positive (.compared rfl (.symbol rfl hspelled) rfl)))
  have hcompiled : (Condition.Phrase.comparison a (equalityOperator negated) b).compiled (Pipeline.compile lookup) =
      .ok (.comparison left (equalityOperator negated) right) := by
    rw [Condition.Phrase.compiled, ha.compiles, hb.compiles]
    rfl
  have hlone : ∀ text ∈ (Condition.Phrase.comparison a (equalityOperator negated) b).operands,
      ConditionToken.Lone text := by simpa [Condition.Phrase.operands] using ⟨ha.lone, hb.lone⟩
  have hempty : (a ++ " " ++ (equalityOperator negated).symbol ++ " " ++ b).isEmpty = false := by
    simp [ha.solid.2]
  rw [HeaderReader.condition, hempty, if_neg Bool.false_ne_true]
  exact Condition.parse_shown_of_derives hderives hlone (Nat.zero_le _) hcompiled

/-- A closing mark is in neither operand, so it is not in a header that has them at its ends. -/
theorem unmarked_append (ha : IsComparand lookup a left) (hb : IsComparand lookup b right) {r : List Char}
    (hpercent : '%' ∉ r) (hbrace : '\x7d' ∉ r) (hne : r ≠ []) :
    ¬ Lexer.closer .block <:+: a.toList ++ r ++ b.toList := fun hmark =>
  (Text.infix_or_infix_of_append hpercent hbrace hne hmark).elim ha.unmarked hb.unmarked

end IsComparand

namespace Halves

variable {endTag : String}

/-- A tag that opens such a block at the start of source. -/
structure OpenedBy (env : Environment) (base : List Nat) (H : Halves endTag) (opener : Segment) : Prop where
  isClean : opener.IsClean
  kind_ne : opener.kind ≠ .text
  step_start : step env (start base) (opener.token 1) = .ok ⟨base, [], [⟨opener.token 1, H.first, []⟩]⟩

/-- A tag opens the block of its directive. -/
theorem openedBy_tag {H : Halves endTag} {k : Directive} {header : String} (hk : env.directive? base k.name = some k)
    (hname : IsTagName k.name) (hpercent : '%' ∉ k.name.toList) (htrimmed : Text.Trimmed header.toList)
    (hmark : ¬ Lexer.closer .block <:+: header.toList) (hopening : k.opening env base header = .ok (.block H.first)) :
    H.OpenedBy env base (tag k.name header) where
  isClean := tag_isClean hpercent hmark
  kind_ne := TokenKind.noConfusion
  step_start := by
    have hheads := tag_token hname htrimmed 1
    have hopens : Grammar.Opens env base k ((tag k.name header).token 1) := ⟨hheads.kind, by rw [hheads.tagName, hk]⟩
    exact Grammar.step_opens hopens (by simp [Compiles]) (Nat.zero_lt_succ _) (by rw [hheads.tagContent, hopening])

/-- The directive of the tag that compares. -/
def equalityDirective (negated : Bool) : Directive := if negated then .inequality else .equality

variable {lookup : FilterLookup} {a b : String} {left right : Expression}

theorem openedBy_equality (negated : Bool)
    (hk : env.directive? base (equalityTag negated) = some (equalityDirective negated))
    (ha : IsComparand (env.filterLookup base) a left) (hb : IsComparand (env.filterLookup base) b right) :
    (equality negated left right).OpenedBy env base (tag (equalityTag negated) (a ++ " " ++ b)) := by
  have htrimmed : Text.Trimmed (a ++ " " ++ b).toList := by
    have hsolid : ∀ bit ∈ [a, b], Bits.Solid bit.toList ∧ bit ≠ "" :=
      List.forall_mem_cons.mpr ⟨ha.solid, by simpa using hb.solid⟩
    simpa [String.intercalate_cons_cons] using (Bits.trimmed_intercalate hsolid).1
  have hmark : ¬ Lexer.closer .block <:+: (a ++ " " ++ b).toList := by
    simpa using ha.unmarked_append hb (by decide : '%' ∉ [' ']) (by decide) (by decide)
  cases negated with
  | false =>
    refine openedBy_tag (k := .equality) hk (by decide) (by decide) htrimmed hmark ?_
    rw [Directive.opening, ha.operands hb]
    rfl
  | true =>
    refine openedBy_tag (k := .inequality) hk (by decide) (by decide) htrimmed hmark ?_
    rw [Directive.opening, ha.operands hb]
    rfl

theorem openedBy_comparison (negated : Bool) (hk : env.directive? base "if" = some .conditional)
    (ha : IsComparand (env.filterLookup base) a left) (hb : IsComparand (env.filterLookup base) b right) :
    (choice (.comparison left (equalityOperator negated) right)).OpenedBy env base
      (tag "if" (a ++ " " ++ (equalityOperator negated).symbol ++ " " ++ b)) := by
  have hsymbol : Bits.Solid (equalityOperator negated).symbol.toList ∧ (equalityOperator negated).symbol ≠ "" := by
    cases negated with
    | false => exact ⟨.plain (by decide) (.plain (by decide) .nil), by decide⟩
    | true => exact ⟨.plain (by decide) (.plain (by decide) .nil), by decide⟩
  have htrimmed : Text.Trimmed (a ++ " " ++ (equalityOperator negated).symbol ++ " " ++ b).toList := by
    have hsolid : ∀ bit ∈ [a, (equalityOperator negated).symbol, b], Bits.Solid bit.toList ∧ bit ≠ "" :=
      List.forall_mem_cons.mpr ⟨ha.solid, List.forall_mem_cons.mpr ⟨hsymbol, by simpa using hb.solid⟩⟩
    simpa [String.intercalate_cons_cons] using (Bits.trimmed_intercalate hsolid).1
  have hmark : ¬ Lexer.closer .block <:+:
      (a ++ " " ++ (equalityOperator negated).symbol ++ " " ++ b).toList := by
    have hnone : '%' ∉ ' ' :: (equalityOperator negated).symbol.toList ++ [' '] ∧
        '\x7d' ∉ ' ' :: (equalityOperator negated).symbol.toList ++ [' '] := by cases negated <;> decide
    simpa using ha.unmarked_append hb hnone.1 hnone.2 (by simp)
  refine openedBy_tag (k := .conditional) hk (by decide) (by decide) htrimmed hmark ?_
  rw [Directive.opening, ha.condition hb]
  rfl

end Halves

/-! ## The two forms -/

namespace Halves

variable {endTag endTag' : String} {first second : List Segment} {source source' body : String} {nodes : List Node}

/-- A body that compiles on its own falls into segments that are closed in themselves. -/
theorem exists_closed_segments (henv : env.StandardTagsOnly) (h : env.compile base body = .ok nodes) :
    ∃ segments, Canonical segments ∧ body.toList = Segment.source segments ∧
      Waiting.Closes [] (onOneLine segments) := by
  obtain ⟨segments, active, hcanonical, hsource, hrun⟩ := exists_run_of_compile henv h
  exact ⟨segments, hcanonical, hsource, closes_of_run hrun (by simp [start])⟩

/-- The tags and bodies of such a block are kept apart. -/
theorem canonical_inside (H : Halves endTag) {opener : Segment} (ho : opener.IsClean) (hk : opener.kind ≠ .text)
    (hfirst : Canonical first) (hsecond : Canonical second) (hlast : (Segment.source first).getLast? ≠ some '\x7b')
    (hlast' : (Segment.source second).getLast? ≠ some '\x7b') :
    Canonical (opener :: inside first second endTag) := by
  have helse : (tag "else" "").IsClean := tag_isClean (by decide) (by decide)
  have hend : (tag endTag "").IsClean := tag_isClean H.percent (by decide)
  have hnil : Canonical [] := ⟨by simp, by simp⟩
  have hrest : Canonical (second ++ [tag endTag ""]) :=
    hsecond.insert hnil hend TokenKind.noConfusion hlast'
  have hinside : Canonical (inside first second endTag) := hfirst.insert hrest helse TokenKind.noConfusion hlast
  exact canonical_cons_iff.mpr ⟨ho, hinside, fun _ _ htext => absurd htext hk⟩

/-- What compiles in one such block compiles in any other that the source opens, with the same bodies. -/
theorem compile_other (henv : env.StandardTagsOnly) {H : Halves endTag} {H' : Halves endTag'} {opener opener' : Segment}
    (ho : H.OpenedBy env base opener) (ho' : H'.OpenedBy env base opener') (hfirst : Canonical first)
    (hsecond : Canonical second) (hclosed : Waiting.Closes [] (onOneLine first))
    (hclosed' : Waiting.Closes [] (onOneLine second)) (hlast : (Segment.source first).getLast? ≠ some '\x7b')
    (hlast' : (Segment.source second).getLast? ≠ some '\x7b')
    (hsource : source.toList = Segment.source (opener :: inside first second endTag))
    (hsource' : source'.toList = Segment.source (opener' :: inside first second endTag'))
    (h : env.compile base source = .ok nodes) : ∃ whenTrue whenFalse, nodes = [H.node whenTrue whenFalse] ∧
      env.compile base source' = .ok [H'.node whenTrue whenFalse] := by
  have hcanonical := H.canonical_inside ho.isClean ho.kind_ne hfirst hsecond hlast hlast'
  have hcanonical' := H'.canonical_inside ho'.isClean ho'.kind_ne hfirst hsecond hlast hlast'
  obtain ⟨active, hrun⟩ := (compile_eq_ok_iff_run henv hcanonical hsource).mp h
  rw [onOneLine_cons, run_cons_ok ho.step_start] at hrun
  obtain ⟨whenTrue, whenFalse, hnodes, hother⟩ := H.run_inside hclosed hclosed' hrun
  cases hnodes
  refine ⟨whenTrue, whenFalse, rfl, (compile_eq_ok_iff_run henv hcanonical' hsource').mpr ⟨active, ?_⟩⟩
  rw [onOneLine_cons, run_cons_ok ho'.step_start]
  exact hother H' _

end Halves

/-- The block that compares two operands and renders one of two bodies. -/
def equalityForm (negated : Bool) (a b whenTrue whenFalse : String) : String :=
  "\x7b% " ++ equalityTag negated ++ " " ++ (a ++ " " ++ b) ++ " %\x7d" ++ whenTrue ++ "\x7b% else %\x7d" ++ whenFalse ++
    ("\x7b% " ++ ("end" ++ equalityTag negated) ++ " %\x7d")

/-- The block with the comparison as its condition. -/
def comparisonForm (negated : Bool) (a b whenTrue whenFalse : String) : String :=
  "\x7b% " ++ "if" ++ " " ++ (a ++ " " ++ (equalityOperator negated).symbol ++ " " ++ b) ++ " %\x7d" ++ whenTrue ++
    "\x7b% else %\x7d" ++ whenFalse ++ ("\x7b% " ++ "endif" ++ " %\x7d")

theorem Halves.source_inside {name header whenTrue whenFalse endTag : String} {first second : List Segment}
    (hne : header ≠ "") (hfirst : whenTrue.toList = Segment.source first)
    (hsecond : whenFalse.toList = Segment.source second) :
    ("\x7b% " ++ name ++ " " ++ header ++ " %\x7d" ++ whenTrue ++ "\x7b% else %\x7d" ++ whenFalse ++
      ("\x7b% " ++ endTag ++ " %\x7d")).toList = Segment.source (tag name header :: inside first second endTag) := by
  have helse : (tag "else" "").raw = "\x7b% else %\x7d".toList := tag_raw_bare "else"
  simp only [inside, source_cons, source_append, source_nil, tag_raw hne, tag_raw_bare endTag, helse, ← hfirst,
    ← hsecond, String.toList_append, List.append_assoc, List.append_nil]

section Forms

variable {a b whenTrue whenFalse : String} {left right : Expression} {nodesTrue nodesFalse : List Node}

/-- The two forms compile alike, and to nodes that render the same wherever the operands can be compared. Over values
that cannot be compared `ifequal` and `ifnotequal` fail, and `if` takes its `else` branch. -/
theorem compile_equality_forms (henv : env.StandardTagsOnly) (negated : Bool)
    (hif : env.directive? base "if" = some .conditional)
    (hequal : env.directive? base (equalityTag negated) = some (Halves.equalityDirective negated))
    (ha : IsComparand (env.filterLookup base) a left) (hb : IsComparand (env.filterLookup base) b right)
    (hwhenTrue : env.compile base whenTrue = .ok nodesTrue) (hwhenFalse : env.compile base whenFalse = .ok nodesFalse)
    (hlast : whenTrue.toList.getLast? ≠ some '\x7b') (hlast' : whenFalse.toList.getLast? ≠ some '\x7b') :
    ((∃ nodes, env.compile base (equalityForm negated a b whenTrue whenFalse) = .ok nodes) ↔
      ∃ nodes, env.compile base (comparisonForm negated a b whenTrue whenFalse) = .ok nodes) ∧
    ∀ nodes nodes', env.compile base (equalityForm negated a b whenTrue whenFalse) = .ok nodes →
      env.compile base (comparisonForm negated a b whenTrue whenFalse) = .ok nodes' →
      ∃ body otherwise, nodes = [.equality negated left right body otherwise] ∧
        nodes' = [.choice [(.comparison left (equalityOperator negated) right, body)] (some otherwise)] ∧
        ∀ s, (∀ s', Incomparable left right s s' → Node.renderAll nodes s = .error .unsupportedKind s' ∧
            Node.renderAll nodes' s = Node.renderAll otherwise s') ∧
          ((∀ s', ¬ Incomparable left right s s') → Node.renderAll nodes s = Node.renderAll nodes' s) := by
  obtain ⟨first, hfirst, hsource, hclosed⟩ := Halves.exists_closed_segments henv hwhenTrue
  obtain ⟨second, hsecond, hsource', hclosed'⟩ := Halves.exists_closed_segments henv hwhenFalse
  rw [hsource] at hlast
  rw [hsource'] at hlast'
  have hopened := Halves.openedBy_equality negated hequal ha hb
  have hopened' := Halves.openedBy_comparison negated hif ha hb
  have hequality : (equalityForm negated a b whenTrue whenFalse).toList = _ :=
    Halves.source_inside (by simp) hsource hsource'
  have hcomparison : (comparisonForm negated a b whenTrue whenFalse).toList = _ :=
    Halves.source_inside (by simp) hsource hsource'
  refine ⟨⟨fun h => ?_, fun h => ?_⟩, fun nodes nodes' h h' => ?_⟩
  · obtain ⟨nodes, h⟩ := h
    obtain ⟨body, otherwise, -, hother⟩ := Halves.compile_other henv hopened hopened' hfirst hsecond hclosed hclosed'
      hlast hlast' hequality hcomparison h
    exact ⟨_, hother⟩
  · obtain ⟨nodes, h⟩ := h
    obtain ⟨body, otherwise, -, hother⟩ := Halves.compile_other henv hopened' hopened hfirst hsecond hclosed hclosed'
      hlast hlast' hcomparison hequality h
    exact ⟨_, hother⟩
  · obtain ⟨body, otherwise, rfl, hother⟩ := Halves.compile_other henv hopened hopened' hfirst hsecond hclosed hclosed'
      hlast hlast' hequality hcomparison h
    rw [hother] at h'
    cases h'
    refine ⟨body, otherwise, rfl, rfl, fun s => ⟨fun s' hs => ?_, fun hs => ?_⟩⟩
    · exact Node.render_incomparable negated left right body otherwise hs
    · exact Node.render_comparable negated left right body otherwise hs

end Forms

theorem exists_isComparand {lookup : FilterLookup} {source : String} (h : (Pipeline.compile lookup source).isOk = true)
    (hfree : Text.BlankFree source.toList) (hmark : ¬ Lexer.closer .block <:+: source.toList)
    (hword : source ∉ ["and", "or", "not", "in"]) : ∃ e, IsComparand lookup source e := by
  obtain ⟨e, he⟩ := exists_of_isOk h
  exact ⟨e, he, hfree, hmark, hword⟩

/-- A body with a block of its own that has an `else` branch. -/
def nestedBody : String := "\x7b% if x %\x7d-\x7b% else %\x7d+\x7b% endif %\x7d"

/-- Around it both forms compile, and render the same of operands that can be compared. -/
theorem compile_equality_forms_nested : (Environment.standard .latest).StandardTagsOnly ∧
    (Environment.standard .latest).directive? [0, 1] "if" = some .conditional ∧
    (Environment.standard .latest).directive? [0, 1] (equalityTag true) = some (Halves.equalityDirective true) ∧
    ∃ left right nodesTrue nodesFalse,
      IsComparand ((Environment.standard .latest).filterLookup [0, 1]) "x|cut:' '" left ∧
      IsComparand ((Environment.standard .latest).filterLookup [0, 1]) "y" right ∧
      (Environment.standard .latest).compile [0, 1] nestedBody = .ok nodesTrue ∧
      (Environment.standard .latest).compile [0, 1] "" = .ok nodesFalse ∧
      nestedBody.toList.getLast? ≠ some '\x7b' ∧ "".toList.getLast? ≠ some '\x7b' ∧
      ∃ nodes nodes',
        (Environment.standard .latest).compile [0, 1] (equalityForm true "x|cut:' '" "y" nestedBody "") =
          .ok nodes ∧
        (Environment.standard .latest).compile [0, 1] (comparisonForm true "x|cut:' '" "y" nestedBody "") =
          .ok nodes' ∧
        ∀ s, (∀ s', ¬ Incomparable left right s s') → Node.renderAll nodes s = Node.renderAll nodes' s := by
  have henv := Environment.standard_standardTagsOnly .latest
  have hif : (Environment.standard .latest).directive? [0, 1] "if" = some .conditional := by decide +kernel
  have hequal : (Environment.standard .latest).directive? [0, 1] (equalityTag true) =
      some (Halves.equalityDirective true) := by decide +kernel
  have hread : (Pipeline.compile ((Environment.standard .latest).filterLookup [0, 1]) "x|cut:' '").isOk = true := by
    decide +kernel
  have hread' : (Pipeline.compile ((Environment.standard .latest).filterLookup [0, 1]) "y").isOk = true := by
    decide +kernel
  obtain ⟨left, ha⟩ := exists_isComparand hread (by decide +kernel) (by decide) (by decide)
  obtain ⟨right, hb⟩ := exists_isComparand hread' (by decide +kernel) (by decide) (by decide)
  have hbody : ((Environment.standard .latest).compile [0, 1] nestedBody).isOk = true := by decide +kernel
  have hempty : ((Environment.standard .latest).compile [0, 1] "").isOk = true := by decide +kernel
  have hform : ((Environment.standard .latest).compile [0, 1]
      (equalityForm true "x|cut:' '" "y" nestedBody "")).isOk = true := by decide +kernel
  obtain ⟨nodesTrue, hwhenTrue⟩ := exists_of_isOk hbody
  obtain ⟨nodesFalse, hwhenFalse⟩ := exists_of_isOk hempty
  obtain ⟨nodes, hnodes⟩ := exists_of_isOk hform
  have hlast : nestedBody.toList.getLast? ≠ some '\x7b' := by decide
  have hlast' : "".toList.getLast? ≠ some '\x7b' := by decide
  obtain ⟨hiff, hforms⟩ := compile_equality_forms henv true hif hequal ha hb hwhenTrue hwhenFalse hlast hlast'
  obtain ⟨nodes', hnodes'⟩ := hiff.mp ⟨nodes, hnodes⟩
  obtain ⟨body, otherwise, -, -, hsame⟩ := hforms nodes nodes' hnodes hnodes'
  exact ⟨henv, hif, hequal, left, right, nodesTrue, nodesFalse, ha, hb, hwhenTrue, hwhenFalse, hlast, hlast', nodes,
    nodes', hnodes, hnodes', fun s hs => (hsame s).2 hs⟩

/-- What a template that compiled ends in, a failure or the text. -/
def ending? (compiled : Except CompileError (List Node)) (s : RenderState) : Option (RenderError ⊕ String) :=
  match compiled with
  | .error _ => none
  | .ok nodes =>
    match Node.renderAll nodes s with
    | .ok written _ => some (.inr written)
    | .error failure _ => some (.inl failure)

/-- The items of a mapping one of whose values is a list, next to a set. -/
def itemsState : RenderState :=
  ⟨.ofScope [("d", .mapping 0 [(.text "a", .list 1 [.int 1])]), ("s", .set [.int 1])] "", .empty 2⟩

/-- An item of the mapping cannot be looked up in the set. So `ifequal` fails, and `if` renders its `else` branch. -/
theorem equality_forms_differ : (∃ left right,
      IsComparand ((Environment.standard .latest).filterLookup [0, 1]) "d.items" left ∧
      IsComparand ((Environment.standard .latest).filterLookup [0, 1]) "s" right) ∧
    ((Environment.standard .latest).compile [0, 1] "T").isOk ∧ ((Environment.standard .latest).compile [0, 1] "F").isOk ∧
    ending? ((Environment.standard .latest).compile [0, 1] (equalityForm false "d.items" "s" "T" "F")) itemsState =
      some (.inl .unsupportedKind) ∧
    ending? ((Environment.standard .latest).compile [0, 1] (comparisonForm false "d.items" "s" "T" "F")) itemsState =
      some (.inr "F") := by
  have hread : (Pipeline.compile ((Environment.standard .latest).filterLookup [0, 1]) "d.items").isOk = true := by
    decide +kernel
  have hread' : (Pipeline.compile ((Environment.standard .latest).filterLookup [0, 1]) "s").isOk = true := by
    decide +kernel
  obtain ⟨left, hleft⟩ := exists_isComparand hread (by decide +kernel) (by decide) (by decide)
  obtain ⟨right, hright⟩ := exists_isComparand hread' (by decide +kernel) (by decide) (by decide)
  exact ⟨⟨left, right, hleft, hright⟩, by decide +kernel, by decide +kernel, by decide +kernel, by decide +kernel⟩

end TextTemplate
