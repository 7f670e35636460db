import TextTemplate.Proofs.Compile.Likeness
import TextTemplate.Proofs.Compile.WellNested
import TextTemplate.Proofs.Tag.Header
import TextTemplate.Proofs.Token.Marks
import TextTemplate.Proofs.Token.Segments

/-!
# The two forms of an assignment

A `with` tag can bind a name by `name=expression` or by `expression as name`. What comes after the tag is compiled in
the same way after either form: the compiler looks at the tag of an open block again only to say which one was left
open. So it is enough to compare the two headers, and they differ in one thing only, since an assignment with an equals
sign ends at a line break, also inside a string.
-/

namespace TextTemplate

variable {L : Nat → Nat → Prop} {env : Environment} {t t' : Token}

/-- Where no failure moves and equal answers are related, results that correspond are equal. -/
theorem Corresponds.eq {α : Type} {r r' : Except CompileError α} (h : Corresponds Eq Eq r r') : r = r' := by
  cases h with
  | ok related => rw [related]
  | error moved =>
    obtain ⟨cause, rfl⟩ := moved
    rfl

/-! ## Tags that are written in another way -/

/-- The same block on either side, but for how its tag is written. -/
structure OpenBlock.Matches (L : Nat → Nat → Prop) (b b' : OpenBlock) : Prop where
  stage_eq : b'.stage = b.stage
  before_eq : b'.before = b.before
  tagName_eq : b'.opener.tagName = b.opener.tagName
  lines : L b.opener.line b'.opener.line

/-- What becomes of a block does not depend on the line of its terminator, but for where a failure is put. -/
theorem Stage.resume_moved (stage : Stage) (env : Environment) (active : List Nat) (nodes : List Node)
    (ht : t.Moved L t') : Corresponds L Eq (stage.resume (env.filterLookup active) nodes t)
      (stage.resume (env.filterLookup active) nodes t') := by
  cases stage with
  | branch before c =>
    rw [resume, resume, ht.tagName_eq, ht.tagContent_eq]
    split_ifs
    · cases hread : HeaderReader.condition (env.filterLookup active) "elif" t.tagContent with
      | ok c' => exact .ok rfl
      | error e =>
        have hunplaced := HeaderReader.condition_failsUnplaced (env.filterLookup_failsUnplaced active) _ _ e hread
        exact .error (hunplaced.moved ht.lines)
    · exact .ok rfl
    · exact .error (.mk _ ht.lines)
    · exact .ok rfl
  | loopBody | whenTrue =>
    rw [resume, resume, ht.tagName_eq]
    split_ifs <;> exact .ok rfl
  | _ => exact .ok rfl

theorem Stage.keep_moved (stage : Stage) (ht : t.Moved L t') : stage.keep t' = stage.keep t := by
  cases stage with
  | verbatim source => rw [keep, keep, ht.raw_eq]
  | _ => rfl

namespace Progress

/-- The same progress on either side, but for how the tags of the open blocks are written. -/
structure Matches (L : Nat → Nat → Prop) (p p' : Progress) : Prop where
  active_eq : p'.active = p.active
  nodes_eq : p'.nodes = p.nodes
  blocks : List.Forall₂ (OpenBlock.Matches L) p.blocks p'.blocks

variable {p p' : Progress}

theorem Matches.inStep (h : p.Matches L p') (ht : t.Moved L t') : InStep (Matches L) t t' p p' where
  active_eq := h.active_eq
  length_eq := h.blocks.length_eq.symm
  add _ _ := ⟨rfl, congrArg (· ++ _) h.nodes_eq, h.blocks⟩
  opens _ := ⟨rfl, rfl, .cons ⟨rfl, h.nodes_eq, ht.tagName_eq, ht.lines⟩ h.blocks⟩

/-- Going on with a block does not look at its tag. -/
theorem Matches.step (h : p.Matches L p') (ht : t.Moved L t') :
    Corresponds L (Matches L) (p.step env t) (p'.step env t') := by
  obtain ⟨active, nodes, blocks⟩ := p
  obtain ⟨active', nodes', blocks'⟩ := p'
  obtain rfl : active' = active := h.active_eq
  obtain rfl : nodes' = nodes := h.nodes_eq
  cases h.blocks with
  | nil => exact (h.inStep ht).item ht []
  | @cons b b' outer outer' hb houter =>
    obtain ⟨opener, stage, before⟩ := b
    obtain ⟨opener', stage', before'⟩ := b'
    obtain rfl : stage' = stage := hb.stage_eq
    obtain rfl : before' = before := hb.before_eq
    have hresume := stage'.resume_moved env active' nodes' ht
    simp only [Progress.step, awaits, ht.kind_eq, ht.tagName_eq, stage'.keep_moved ht]
    split_ifs
    · revert hresume
      generalize stage'.resume (env.filterLookup active') nodes' t = r
      generalize stage'.resume (env.filterLookup active') nodes' t' = r'
      rintro (⟨rfl⟩ | moved)
      · rename_i resumed
        cases resumed with
        | again stage => exact .ok ⟨rfl, rfl, .cons ⟨rfl, rfl, hb.tagName_eq, hb.lines⟩ houter⟩
        | closed node => exact .ok ⟨rfl, rfl, houter⟩
      · exact .error moved
    · exact .ok ⟨rfl, rfl, .cons ⟨rfl, rfl, hb.tagName_eq, hb.lines⟩ houter⟩
    · exact (h.inStep ht).item ht stage'.awaited

/-- So does compiling one token after the other. -/
theorem Matches.run {tokens tokens' : List Token} (h : p.Matches L p')
    (htokens : List.Forall₂ (Token.Moved L) tokens tokens') :
    Corresponds L (Matches L) (run env tokens p) (run env tokens' p') := by
  induction htokens generalizing p p' with
  | nil => exact .ok h
  | cons ht _ ih =>
    rw [run_cons, run_cons]
    exact (h.step ht).bind fun _ _ => ih

theorem Matches.finish (h : p.Matches L p') {fault fault' : Option CompileError}
    (hfault : Option.Rel (CompileError.Moved L) fault fault') :
    Corresponds L Eq (p.finish fault) (p'.finish fault') := by
  cases hfault with
  | some moved => exact .error moved
  | none =>
    obtain ⟨active, nodes, blocks⟩ := p
    obtain ⟨active', nodes', blocks'⟩ := p'
    cases h.blocks with
    | nil => exact .ok h.nodes_eq.symm
    | cons hb _ =>
      simp only [Progress.finish, hb.tagName_eq, hb.stage_eq]
      exact .error (.mk _ hb.lines)

/-- The outcomes are the same template or the same failure. -/
theorem Matches.outcome {tokens tokens' : List Token} {fault fault' : Option CompileError} (h : p.Matches L p')
    (htokens : List.Forall₂ (Token.Moved L) tokens tokens') (hfault : Option.Rel (CompileError.Moved L) fault fault') :
    Corresponds L Eq (p.outcome env tokens fault) (p'.outcome env tokens' fault') :=
  (h.run htokens).bind fun _ _ hlast => hlast.finish hfault

end Progress

/-! ## Headers -/

namespace HeaderReader

open Text Header

variable {lookup : FilterLookup} {name : String} {e : Expression}

/-- An assignment is not read where there is a line break in its expression. -/
theorem assignment_of_newline (hname : IsName name) (hline : '\n' ∈ e.source.toList) :
    assignment (assignmentBit (name, e)) = .error (.badAssignment (assignmentBit (name, e))) := by
  have hequals : isWord '=' = false := by decide
  have hdrop : (assignmentBit (name, e)).toList.dropWhile isWord = '=' :: e.source.toList := by
    rw [toList_assignmentBit, List.dropWhile_append_of_pos hname.word]
    simp [hequals]
  have hread : assignment? (assignmentBit (name, e)).toList = none := by
    rw [assignment?, hdrop]
    simp [hline]
  rw [assignment, hread]

/-- An assignment on its own binds its name, unless there is a line break in its expression. -/
theorem bindings_equals (he : IsBit lookup e) (hname : IsName name) :
    bindings lookup (assignmentBit (name, e)) =
      if '\n' ∈ e.source.toList then .error (.ofCause (.header (.badAssignment (assignmentBit (name, e)))))
      else .ok [(name, e)] := by
  have hself : " ".intercalate [assignmentBit (name, e)] = assignmentBit (name, e) := String.intercalate_singleton
  have hbits : Bits.ofString (assignmentBit (name, e)) = [assignmentBit (name, e)] := by
    have hjoined := Bits.ofString_intercalate (List.forall_mem_singleton.mpr (assignmentBit_solid hname he.solid.1))
    rwa [hself] at hjoined
  split_ifs with hline
  · rw [bindings_assignments (by simp [hbits]), hbits, assignments, assignment_of_newline hname hline]
    rfl
  · have hassigned : ∀ a ∈ [(name, e)], IsAssigned lookup a := List.forall_mem_singleton.mpr ⟨hname, he, hline⟩
    have hwritten := (bindings_written (List.cons_ne_nil _ []) hassigned).2
    rwa [List.map_singleton, hself] at hwritten

/-- An expression and a name with `as` between them bind the name in any case. -/
theorem bindings_as (he : IsBit lookup e) (hname : IsName name) :
    Trimmed (e.source ++ " as " ++ name).toList ∧ bindings lookup (e.source ++ " as " ++ name) = .ok [(name, e)] := by
  have hjoin : e.source ++ " as " ++ name = " ".intercalate [e.source, "as", name] :=
    String.toList_inj.mp (by simp [String.intercalate_cons_cons])
  rw [hjoin]
  exact bindings_alias_written he hname

end HeaderReader

/-! ## Source that starts with the tag -/

open Text Lexer Grammar Progress Header

/-- A `with` tag with a header. -/
def withTag (header : String) : String := "\x7b% with " ++ header ++ " %\x7d"

/-- The end tag of a `with` tag. -/
def endWith : String := "\x7b% endwith %\x7d"

/-- A header that can stand in a tag. -/
structure IsWritten (header : String) : Prop where
  trimmed : Trimmed header.toList
  ne_empty : header ≠ ""
  unmarked : ¬ closer .block <:+: header.toList

/-- The token that a `with` tag is scanned to at the start of source. -/
def withToken (header : String) : Token := (Segment.tag "with" header).token 1

/-- The progress in the body of a `with` tag at the start of source. -/
def insideWith (base : List Nat) (header : String) (found : List (String × Expression)) : Progress :=
  ⟨base, [], [⟨withToken header, .bindingBody found, []⟩]⟩

variable {base : List Nat} {header : String}

namespace IsWritten

theorem heads (h : IsWritten header) : (withToken header).Heads "with" header :=
  Segment.tag_token (by decide) h.trimmed 1

/-- The tag is one token, whatever follows. -/
theorem tokens_withTag (h : IsWritten header) (rest : String) : Lexer.tokens (withTag header ++ rest) =
    (withToken header :: (scan rest.toList (1 + newlines header.toList)).1,
      (scan rest.toList (1 + newlines header.toList)).2) := by
  have hkind : (Segment.tag "with" header).kind ≠ .text := TokenKind.noConfusion
  have hinner : (Segment.tag "with" header).inner = " with ".toList ++ (header.toList ++ [' ']) := by
    simp [Segment.tag, Segment.delimited, h.ne_empty]
  have hclean : (Segment.tag "with" header).IsClean := Segment.tag_isClean (by decide) h.unmarked
  have hraw : (withTag header ++ rest).toList = (Segment.tag "with" header).raw ++ rest.toList := by
    rw [Segment.raw, hinner]
    simp [withTag, Segment.tag, Segment.delimited, opener, closer]
  have hlines : newlines (Segment.tag "with" header).raw = newlines header.toList := by
    have hwith : newlines " with ".toList = 0 ∧ newlines [' '] = 0 := by decide
    obtain ⟨hopen, hclose⟩ := newlines_marks (Segment.tag "with" header).kind
    rw [Segment.raw, newlines_append, newlines_append, hopen, hclose, hinner, newlines_append, newlines_append,
      hwith.1, hwith.2]
    omega
  rw [Lexer.tokens, hraw, scan_delimited_append hkind hclean, hlines]
  rfl

/-- The tag fails over its header, or what comes after it is compiled as its body and the rest of the template. -/
theorem compile_withTag (h : IsWritten header) (henv : env.StandardTagsOnly)
    (hwith : env.directive? base "with" = some .binding) (rest : String) :
    env.compile base (withTag header ++ rest) =
      match HeaderReader.bindings (env.filterLookup base) header with
      | .error e => .error (e.atLine 1)
      | .ok found => (insideWith base header found).outcome env (scan rest.toList (1 + newlines header.toList)).1
          (scan rest.toList (1 + newlines header.toList)).2 := by
  have hopens : Opens env base .binding (withToken header) := ⟨h.heads.kind, by rw [h.heads.tagName, hwith]⟩
  have hroom : (start base).blocks.length < Environment.maxOpenTags := Nat.zero_lt_succ _
  rw [compile_eq_outcome henv, h.tokens_withTag, outcome_cons,
    step_eq_enter (by simp [Compiles, start]) hopens hroom, enter, Directive.opening, h.heads.tagContent]
  cases hread : HeaderReader.bindings (env.filterLookup base) header with
  | error e =>
    simp only [start, hread]
    rfl
  | ok found =>
    simp only [start, hread]
    rfl

/-- After two headers that bind the same, all source is compiled in the same way. -/
theorem outcome_eq {header' : String} (h : IsWritten header) (h' : IsWritten header')
    (found : List (String × Expression)) (s : List Char) (line : Nat) :
    (insideWith base header found).outcome env (scan s line).1 (scan s line).2 =
      (insideWith base header' found).outcome env (scan s line).1 (scan s line).2 := by
  have hmatches : (insideWith base header found).Matches Eq (insideWith base header' found) :=
    ⟨rfl, rfl, .cons ⟨rfl, rfl, h'.heads.tagName.trans h.heads.tagName.symm, rfl⟩ .nil⟩
  obtain ⟨htokens, hfault⟩ := scan_moved (L := Eq) s (fun n => Eq.refl (line + n))
  exact (hmatches.outcome htokens hfault).eq

end IsWritten

/-! ### The body and the end tag -/

theorem scan_endWith (line : Nat) : ∃ t : Token, t.isBlock "endwith" ∧ scan endWith.toList line = ([t], none) := by
  have hsource : endWith.toList = Segment.source [Segment.tag "endwith" ""] := by decide
  refine ⟨_, (Segment.heads_bare (by decide) line).isBlock, ?_⟩
  rw [hsource]
  exact scan_source (by decide) line

section Body

variable {body : String} {nodes : List Node} {s : Session} (henv : env.StandardTagsOnly)
  (hbody : env.parseAt (Environment.maxOpenTags - 1) [] (Session.ofSource body base) = .ok nodes s)

include henv hbody

/-- A body that compiles on its own, with room for one more open tag, is compiled in the tag as well, on whichever line
it starts. -/
theorem run_insideWith (header : String) (found : List (String × Expression)) (line : Nat) :
    (scan body.toList line).2 = none ∧ ∃ b : OpenBlock, b.stage = .bindingBody found ∧ b.before = [] ∧
      run env (scan body.toList line).1 (insideWith base header found) = .ok ⟨s.active, nodes, [b]⟩ := by
  obtain ⟨hnone, hderived⟩ := body_of_parseAt_eq_ok henv hbody
  have hroom : (insideWith base header found).blocks.length + (Environment.maxOpenTags - 1) ≤
      Environment.maxOpenTags := by simp [insideWith, Environment.maxOpenTags]
  have hrun := body_runs env _ hderived [] (insideWith base header found).blocks hroom
    (by simp [insideWith, Compiles, Stage.isOpaque])
  -- on its own the body starts on the first line
  obtain ⟨htokens, hfault⟩ := @scan_moved (fun _ _ => True) body.toList 1 line fun _ => trivial
  have hsame : (insideWith base header found).Matches (fun _ _ => True) (insideWith base header found) :=
    ⟨rfl, rfl, .cons ⟨rfl, rfl, rfl, trivial⟩ .nil⟩
  obtain ⟨⟨active, nodes', blocks⟩, hrun', hactive, hnodes, hblocks⟩ := (hsame.run htokens).exists_ok hrun
  obtain rfl : active = s.active := hactive
  obtain rfl : nodes' = nodes := hnodes
  refine ⟨?_, ?_⟩
  · have hnone' : (scan body.toList 1).2 = none := hnone
    rw [hnone'] at hfault
    cases hfault' : (scan body.toList line).2 with
    | none => rfl
    | some e =>
      rw [hfault'] at hfault
      cases hfault
  · cases hblocks with
    | @cons _ b _ _ hb hnil =>
      cases hnil
      exact ⟨b, hb.stage_eq, hb.before_eq, hrun'⟩

/-- So with the end tag after it the body completes the template. -/
theorem outcome_insideWith (header : String) (found : List (String × Expression))
    (hlast : body.toList.getLast? ≠ some '\x7b') (line : Nat) :
    (insideWith base header found).outcome env (scan (body ++ endWith).toList line).1
      (scan (body ++ endWith).toList line).2 = .ok [.binding found nodes] := by
  obtain ⟨hnone, b, hstage, hbefore, hrun⟩ := run_insideWith henv hbody header found line
  obtain ⟨t, hend, hscan⟩ := scan_endWith (line + newlines body.toList)
  have hopening : (opening? endWith.toList).isSome := by decide
  have hclose : run env [t] ⟨s.active, nodes, [b]⟩ =
      .ok ⟨s.active, b.before ++ (some (Node.binding found nodes)).toList, []⟩ :=
    run_endTag hend (by simp [hstage, Stage.awaited]) (by rw [hstage, Stage.resume])
  rw [String.toList_append, scan_append hnone hlast hopening, hscan, outcome_append_ok hrun, outcome, hclose, hbefore]
  rfl

end Body

/-! ## The two forms -/

section Forms

variable {lookup : FilterLookup} {name : String} {e : Expression}

theorem isWritten_equals (he : HeaderReader.IsBit lookup e) (hname : IsName name)
    (hmark : ¬ closer .block <:+: e.source.toList) : IsWritten (assignmentBit (name, e)) where
  trimmed := (assignmentBit_solid hname he.solid.1).1.trimmed
  ne_empty := (assignmentBit_solid hname he.solid.1).2
  unmarked h := by
    have hname' : '%' ∉ name.toList ++ ['='] := by
      simpa using fun hmem => hname.ne (by decide) '%' hmem rfl
    rw [toList_assignmentBit, List.append_cons] at h
    exact hmark (infix_of_infix_append_left hname' h)

theorem isWritten_as (he : HeaderReader.IsBit lookup e) (hname : IsName name)
    (hmark : ¬ closer .block <:+: e.source.toList) : IsWritten (e.source ++ " as " ++ name) where
  trimmed := (HeaderReader.bindings_as he hname).1
  ne_empty h := by simp at h
  unmarked h := by
    have hname' : '\x7d' ∉ " as ".toList ++ name.toList := by
      simpa using fun hmem => hname.ne (by decide) '\x7d' hmem rfl
    rw [String.toList_append, String.toList_append, List.append_assoc] at h
    exact hmark (infix_of_infix_append_right hname' h)

theorem newlines_headers (name source : String) :
    newlines (name ++ "=" ++ source).toList = newlines (source ++ " as " ++ name).toList := by
  have hmarks : newlines "=".toList = 0 ∧ newlines " as ".toList = 0 := by decide
  simp only [String.toList_append, newlines_append, hmarks]
  omega

end Forms

/-- The two forms of `with` differ in nothing but a line break in a string: the form with an equals sign fails over it,
and otherwise all source is compiled as it is after the form with `as`. That one takes the name and the expression for
what they are, so with a body that compiles on its own and the end tag it compiles to a binding of the body. -/
theorem compile_with_forms (henv : env.StandardTagsOnly) (hwith : env.directive? base "with" = some .binding)
    {name source : String} {e : Expression} (hname : IsName name)
    (hcompile : Pipeline.compile (env.filterLookup base) source = .ok e) (hfree : BlankFree source.toList)
    (hmark : ¬ "%\x7d".toList <:+: source.toList) :
    (∀ rest, env.compile base (withTag (name ++ "=" ++ source) ++ rest) =
      if '\n' ∈ source.toList then .error ⟨.header (.badAssignment (name ++ "=" ++ source)), some 1⟩
      else env.compile base (withTag (source ++ " as " ++ name) ++ rest)) ∧
    ∀ body nodes s, body.toList.getLast? ≠ some '\x7b' →
      env.parseAt (Environment.maxOpenTags - 1) [] (Session.ofSource body base) = .ok nodes s →
      env.compile base (withTag (source ++ " as " ++ name) ++ (body ++ endWith)) =
        .ok [.binding [(name, e)] nodes] := by
  obtain ⟨rfl, -, -, -⟩ := Pipeline.compile_eq_ok hcompile
  have he : HeaderReader.IsBit (env.filterLookup base) e := ⟨hcompile, hfree⟩
  have hequals := isWritten_equals he hname hmark
  have has := isWritten_as he hname hmark
  have hread := (HeaderReader.bindings_as he hname).2
  refine ⟨fun rest => ?_, fun body nodes s hlast hbody => ?_⟩
  · have hfirst := hequals.compile_withTag henv hwith rest
    rw [HeaderReader.bindings_equals he hname] at hfirst
    rw [has.compile_withTag henv hwith rest, hread, ← newlines_headers]
    refine hfirst.trans ?_
    split_ifs
    · rfl
    · exact hequals.outcome_eq has _ _ _
  · rw [has.compile_withTag henv hwith, hread]
    exact outcome_insideWith henv hbody _ _ hlast _

/-- An expression with quotes, blanks and equals signs in its strings. -/
def tangledSource : String := "'a = \\'b'|default:\" n=1\""

/-- Both forms bind it, with the name written next to an equals sign and after `as`. -/
theorem compile_with_forms_tangled : (Environment.standard .latest).StandardTagsOnly ∧
    (Environment.standard .latest).directive? [0, 1] "with" = some .binding ∧ IsName "n" ∧
    BlankFree tangledSource.toList ∧ ¬ "%\x7d".toList <:+: tangledSource.toList ∧
    ∃ e nodes s, Pipeline.compile ((Environment.standard .latest).filterLookup [0, 1]) tangledSource = .ok e ∧
      "\x7b\x7b n \x7d\x7d".toList.getLast? ≠ some '\x7b' ∧
      (Environment.standard .latest).parseAt (Environment.maxOpenTags - 1) []
        (Session.ofSource "\x7b\x7b n \x7d\x7d" [0, 1]) = .ok nodes s ∧
      (Environment.standard .latest).compile [0, 1]
        (withTag ("n" ++ "=" ++ tangledSource) ++ ("\x7b\x7b n \x7d\x7d" ++ endWith)) =
          .ok [.binding [("n", e)] nodes] ∧
      (Environment.standard .latest).compile [0, 1]
        (withTag (tangledSource ++ " as " ++ "n") ++ ("\x7b\x7b n \x7d\x7d" ++ endWith)) =
          .ok [.binding [("n", e)] nodes] := by
  have henv := Environment.standard_standardTagsOnly .latest
  have hwith : (Environment.standard .latest).directive? [0, 1] "with" = some .binding := by decide +kernel
  have hname : IsName "n" := by decide
  have hfree : BlankFree tangledSource.toList := by decide +kernel
  have hmark : ¬ "%\x7d".toList <:+: tangledSource.toList := by decide +kernel
  have hlast : "\x7b\x7b n \x7d\x7d".toList.getLast? ≠ some '\x7b' := by decide
  have hreads : (Pipeline.compile ((Environment.standard .latest).filterLookup [0, 1]) tangledSource).isOk = true := by
    decide +kernel
  obtain ⟨e, hread⟩ := exists_of_isOk hreads
  have hcompiles : (Environment.finished ((Environment.standard .latest).parseAt (Environment.maxOpenTags - 1) []
      (Session.ofSource "\x7b\x7b n \x7d\x7d" [0, 1]))).isOk = true := by decide +kernel
  obtain ⟨hequals, has⟩ := compile_with_forms henv hwith hname hread hfree hmark
  cases hbody : (Environment.standard .latest).parseAt (Environment.maxOpenTags - 1) []
      (Session.ofSource "\x7b\x7b n \x7d\x7d" [0, 1]) with
  | error e s =>
    rw [hbody] at hcompiles
    cases hcompiles
  | ok nodes s =>
    have halias := has _ nodes s hlast hbody
    refine ⟨henv, hwith, hname, hfree, hmark, e, nodes, s, hread, hlast, rfl, ?_, halias⟩
    rw [hequals, if_neg (by decide +kernel), halias]

/-- A string with a line break. -/
def brokenSource : String := "'a\nb'"

/-- It is bound by the form with `as`, and the form with an equals sign fails over it. -/
theorem with_forms_differ : IsName "n" ∧ BlankFree brokenSource.toList ∧ ¬ "%\x7d".toList <:+: brokenSource.toList ∧
    (∃ e, Pipeline.compile ((Environment.standard .latest).filterLookup [0, 1]) brokenSource = .ok e) ∧
    (∃ nodes, (Environment.standard .latest).compile [0, 1]
      (withTag (brokenSource ++ " as " ++ "n") ++ ("x" ++ endWith)) = .ok nodes) ∧
    (Environment.standard .latest).compile [0, 1] (withTag ("n" ++ "=" ++ brokenSource) ++ ("x" ++ endWith)) =
      .error ⟨.header (.badAssignment "n='a\nb'"), some 1⟩ := by
  have hreads : (Pipeline.compile ((Environment.standard .latest).filterLookup [0, 1]) brokenSource).isOk = true := by
    decide +kernel
  have has : ((Environment.standard .latest).compile [0, 1]
      (withTag (brokenSource ++ " as " ++ "n") ++ ("x" ++ endWith))).isOk = true := by decide +kernel
  exact ⟨by decide, by decide +kernel, by decide +kernel, exists_of_isOk hreads, exists_of_isOk has, by decide +kernel⟩

end TextTemplate
