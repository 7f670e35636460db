import TextTemplate.Proofs.Compile.WellNested
import TextTemplate.Proofs.Node.Tree

/-!
# Compiling what was written

The source of a tree is scanned to the tokens of its segments, and these are a body of the grammar with the
nodes of the tree: each part is derived in front of whatever is derived after it. So a template compiles to
the nodes that it was written for.
-/

namespace TextTemplate

open Grammar Segment

namespace Environment

/-- The active libraries have all standard tags. -/
def HasStandardTags (env : Environment) (active : List Nat) : Prop :=
  ∀ d : Directive, env.directive? active d.name = some d

theorem standard_hasStandardTags (precedence : Precedence) :
    (standard precedence).HasStandardTags [0, 1] := by
  intro d
  cases precedence <;> cases d <;> decide +kernel

end Environment

theorem Directive.isTagName (d : Directive) : IsTagName d.name := by
  cases d <;> decide

namespace Tree

variable {env : Environment} {base : List Nat}

/-- A written block tag opens the block of its directive, with the header that was written. -/
theorem opens_tag (hbase : env.HasStandardTags base) (d : Directive) {header : String}
    (h : Text.Trimmed header.toList) (line : Nat) :
    Opens env base d ((tag d.name header).token line) ∧ ((tag d.name header).token line).tagContent = header := by
  have heads := tag_token d.isTagName h line
  refine ⟨⟨heads.kind, ?_⟩, heads.tagContent⟩
  rw [heads.tagName]
  exact hbase d

theorem isTagName_equalityEnd (negated : Bool) : IsTagName ("end" ++ equalityName negated) := by
  cases negated <;> decide

attribute [local simp] segments allSegments branchSegments endingSegments

/-! ## Blocks -/

/-- Segments are derived wherever they start, and leave the active libraries as they are. -/
def Derived {α : Type} (Part : Derives α) (base : List Nat) (segments : List Segment) (found : α) : Prop :=
  ∀ line, Part base (tokensFrom line segments) found base

section Blocks

variable {Inner : Derives (List Node)} (hbase : env.HasStandardTags base)

include hbase

/-- An `if` tag is derived from its condition, its branches and what ends it. -/
theorem derived_choice {condition : Written Condition} {body : List Tree}
    {more : List (Written Condition × List Tree)} {otherwise : Option (List Tree)}
    (hcondition : Condition.parse (Pipeline.compile (env.filterLookup base)) condition.text = .ok condition.value)
    (hbody : Derived Inner base (allSegments body) (allNodes body))
    (hmore : Derived (Elifs env Inner) base (branchSegments more) (branchNodes more))
    (hother : Derived (Ending Inner (fun m => m.isBlock "else" ∧ m.tagContent = "") "endif") base
      (endingSegments "else" "endif" otherwise) (optionNodes otherwise)) :
    Derived (Block env Inner) base (choice condition body more otherwise).segments
      (some (choice condition body more otherwise).node) := by
  intro line
  obtain ⟨hopens, hcontent⟩ := opens_tag hbase .conditional condition.trimmed line
  have hread := HeaderReader.condition_written hcondition "if"
  rw [segments, tokensFrom_append, tokensFrom_append, tokensFrom_cons]
  exact .conditional hopens (hcontent.symm ▸ hread) (hbody _) (hmore _) (hother _)

theorem derived_loop {names : List String} {sequence : Expression} {reversed : Bool} {body : List Tree}
    {empty : Option (List Tree)} (hnames : names ≠ []) (hname : ∀ name ∈ names, Header.IsLoopName name)
    (hsequence : HeaderReader.IsBit (env.filterLookup base) sequence)
    (hbody : Derived Inner base (allSegments body) (allNodes body))
    (hempty : Derived (Ending Inner (·.isBlock "empty") "endfor") base (endingSegments "empty" "endfor" empty)
      (optionNodes empty)) :
    Derived (Block env Inner) base (loop names sequence reversed body empty).segments
      (some (loop names sequence reversed body empty).node) := by
  intro line
  obtain ⟨htrimmed, hread⟩ := HeaderReader.loop_written hnames hname hsequence reversed
  obtain ⟨hopens, hcontent⟩ := opens_tag hbase .loop htrimmed line
  rw [segments, tokensFrom_append, tokensFrom_cons]
  exact .loop hopens (hcontent.symm ▸ hread) (hbody _) (hempty _)

/-- A `with` tag is derived from its body, in whichever form its header binds names. -/
theorem derived_bindings {header : String} {found : List (String × Expression)} {body : List Tree}
    (htrimmed : Text.Trimmed header.toList)
    (hread : HeaderReader.bindings (env.filterLookup base) header = .ok found)
    (hbody : Derived Inner base (allSegments body) (allNodes body)) :
    Derived (Block env Inner) base (tag "with" header :: allSegments body ++ [tag "endwith" ""])
      (some (.binding found (allNodes body))) := by
  intro line
  obtain ⟨hopens, hcontent⟩ := opens_tag hbase .binding htrimmed line
  rw [tokensFrom_append, tokensFrom_cons]
  exact .binding hopens (hcontent.symm ▸ hread) (hbody _) (heads_bare (by decide) _).isBlock

theorem derived_equality {negated : Bool} {left right : Expression} {whenTrue : List Tree}
    {whenFalse : Option (List Tree)} (hleft : HeaderReader.IsBit (env.filterLookup base) left)
    (hright : HeaderReader.IsBit (env.filterLookup base) right)
    (hbody : Derived Inner base (allSegments whenTrue) (allNodes whenTrue))
    (hother : Derived (Ending Inner (·.isBlock "else") ("end" ++ equalityName negated)) base
      (endingSegments "else" ("end" ++ equalityName negated) whenFalse) (optionNodes whenFalse)) :
    Derived (Block env Inner) base (equality negated left right whenTrue whenFalse).segments
      (some (equality negated left right whenTrue whenFalse).node) := by
  intro line
  obtain ⟨htrimmed, hread⟩ := HeaderReader.operands_written hleft hright (equalityName negated)
  rw [segments, tokensFrom_append, tokensFrom_cons]
  cases negated with
  | false =>
    obtain ⟨hopens, hcontent⟩ := opens_tag hbase .equality htrimmed line
    exact .equality hopens (hcontent.symm ▸ hread) (hbody _) (hother _)
  | true =>
    obtain ⟨hopens, hcontent⟩ := opens_tag hbase .inequality htrimmed line
    exact .inequality hopens (hcontent.symm ▸ hread) (hbody _) (hother _)

theorem derived_firstTrue {candidates : List Expression} (hne : candidates ≠ [])
    (h : ∀ e ∈ candidates, HeaderReader.IsBit (env.filterLookup base) e) :
    Derived (Block env Inner) base (firstTrue candidates).segments (some (firstTrue candidates).node) := by
  intro line
  obtain ⟨htrimmed, hread⟩ := HeaderReader.candidates_written hne h
  obtain ⟨hopens, hcontent⟩ := opens_tag hbase .firstOf htrimmed line
  exact .firstOf hopens (hcontent.symm ▸ hread)

theorem derived_spaceless {body : List Tree} (hbody : Derived Inner base (allSegments body) (allNodes body)) :
    Derived (Block env Inner) base (spaceless body).segments (some (spaceless body).node) := by
  intro line
  obtain ⟨hopens, -⟩ := opens_tag hbase .spaceless Text.trimmed_empty line
  rw [segments, tokensFrom_append, tokensFrom_cons]
  exact .spaceless hopens (hbody _) (heads_bare (by decide) _).isBlock

theorem derived_filtered {chain : Written (List FilterCall)} {body : List Tree}
    (hread : Pipeline.compileChain (env.filterLookup base) chain.text = .ok chain.value)
    (hbody : Derived Inner base (allSegments body) (allNodes body)) :
    Derived (Block env Inner) base (filtered chain body).segments (some (filtered chain body).node) := by
  intro line
  obtain ⟨hopens, hcontent⟩ := opens_tag hbase .filtered chain.trimmed line
  rw [segments, tokensFrom_append, tokensFrom_cons]
  exact .filtered hopens (hcontent.symm ▸ hread) (hbody _) (heads_bare (by decide) _).isBlock

end Blocks

/-! ## Bodies -/

theorem body_nil (room : Nat) (active : List Nat) : Body env room active [] [] active := by
  cases room <;> exact .nil

theorem body_text {room : Nat} {active active' : List Nat} {t : Token} {ts : List Token} {nodes : List Node}
    (hk : t.kind = .text) (h : Body env room active ts nodes active') :
    Body env room active (t :: ts) (.text t.content :: nodes) active' := by
  cases room <;> exact .text hk h

theorem body_output {room : Nat} {active active' : List Nat} {t : Token} {ts : List Token} {e : Expression}
    {nodes : List Node} (hk : t.kind = .variable)
    (he : Pipeline.compile (env.filterLookup active) t.content = .ok e)
    (h : Body env room active ts nodes active') :
    Body env room active (t :: ts) (.output e :: nodes) active' := by
  cases room <;> exact .output hk he h

/-- A block takes the room for one open tag, and leaves the rest of it to its bodies. -/
theorem body_block {depth room : Nat} {segments : List Segment} {node : Node} (hroom : depth + 1 ≤ room)
    (hblock : ∀ room, depth ≤ room → Derived (Block env (Body env room)) base segments (some node)) (line : Nat)
    {ts : List Token} {nodes : List Node} (h : Body env room base ts nodes base) :
    Body env room base (tokensFrom line segments ++ ts) (node :: nodes) base := by
  obtain ⟨room, rfl⟩ : ∃ r, room = r + 1 := ⟨room - 1, by omega⟩
  exact .block (hblock room (by omega) line) h

mutual

/-- A part is derived in front of what is derived after it. -/
theorem body_segments (hbase : env.HasStandardTags base) (t : Tree) (hvalid : t.Valid (env.filterLookup base))
    {room : Nat} (hroom : t.depth ≤ room) (line : Nat) {ts : List Token} {nodes : List Node}
    (hrest : Body env room base ts nodes base) :
    Body env room base (tokensFrom line t.segments ++ ts) (t.node :: nodes) base := by
  match t, hvalid with
  | .text s, _ =>
    have h := body_text (t := (Segment.mk .text s.toList).token line) rfl hrest
    simpa [node, token, Lexer.textToken] using h
  | .output e, hcompiles =>
    obtain ⟨-, -, htrimmed, -⟩ := Pipeline.compile_eq_ok hcompiles
    obtain ⟨hkind, hcontent⟩ := delimited_token .variable (by decide) htrimmed line
    exact body_output hkind (hcontent.symm ▸ hcompiles) hrest
  | .choice condition body more otherwise, hvalid =>
    obtain ⟨hcondition, hbody, hmore, hother⟩ := hvalid
    refine body_block hroom (fun room hroom => ?_) line hrest
    obtain ⟨hbodyRoom, hlater⟩ := Nat.max_le.mp hroom
    obtain ⟨hmoreRoom, hotherRoom⟩ := Nat.max_le.mp hlater
    have helse : IsTagName "else" := by decide
    exact derived_choice hbase hcondition (body_allSegments hbase body hbody hbodyRoom)
      (elifs_branchSegments hbase more hmore hmoreRoom)
      (ending_endingSegments hbase otherwise hother hotherRoom
        (fun line => ⟨(heads_bare helse line).isBlock, (heads_bare helse line).tagContent⟩)
        (by decide))
  | .loop names sequence reversed body empty, hvalid =>
    obtain ⟨⟨hnames, hname, hsequence⟩, hbody, hempty⟩ := hvalid
    refine body_block hroom (fun room hroom => ?_) line hrest
    obtain ⟨hbodyRoom, hemptyRoom⟩ := Nat.max_le.mp hroom
    exact derived_loop hbase hnames hname hsequence (body_allSegments hbase body hbody hbodyRoom)
      (ending_endingSegments hbase empty hempty hemptyRoom
        (fun line => (heads_bare (by decide) line).isBlock) (by decide))
  | .binding assignments body, hvalid =>
    obtain ⟨⟨hne, hassigned⟩, hbody⟩ := hvalid
    obtain ⟨htrimmed, hread⟩ := HeaderReader.bindings_written hne hassigned
    exact body_block hroom (fun room hroom =>
      derived_bindings hbase htrimmed hread (body_allSegments hbase body hbody hroom)) line hrest
  | .aliased e name body, hvalid =>
    obtain ⟨⟨he, hname⟩, hbody⟩ := hvalid
    obtain ⟨htrimmed, hread⟩ := HeaderReader.bindings_alias_written he hname
    exact body_block hroom (fun room hroom =>
      derived_bindings hbase htrimmed hread (body_allSegments hbase body hbody hroom)) line hrest
  | .equality negated left right whenTrue whenFalse, hvalid =>
    obtain ⟨⟨hleft, hright⟩, hbody, hother⟩ := hvalid
    refine body_block hroom (fun room hroom => ?_) line hrest
    obtain ⟨hbodyRoom, hotherRoom⟩ := Nat.max_le.mp hroom
    exact derived_equality hbase hleft hright (body_allSegments hbase whenTrue hbody hbodyRoom)
      (ending_endingSegments hbase whenFalse hother hotherRoom
        (fun line => (heads_bare (by decide) line).isBlock) (isTagName_equalityEnd negated))
  | .firstTrue candidates, hvalid =>
    obtain ⟨hne, hcandidates⟩ := hvalid
    exact body_block hroom (fun _ _ => derived_firstTrue hbase hne hcandidates) line hrest
  | .spaceless body, hbody =>
    exact body_block hroom (fun room hroom =>
      derived_spaceless hbase (body_allSegments hbase body hbody hroom)) line hrest
  | .filtered chain body, hvalid =>
    obtain ⟨hread, hbody⟩ := hvalid
    exact body_block hroom (fun room hroom =>
      derived_filtered hbase hread (body_allSegments hbase body hbody hroom)) line hrest

/-- A body is derived from its segments. -/
theorem body_allSegments (hbase : env.HasStandardTags base) (body : List Tree)
    (hvalid : AllValid (env.filterLookup base) body) {room : Nat} (hroom : allDepth body ≤ room) :
    Derived (Body env room) base (allSegments body) (allNodes body) := by
  intro line
  match body, hvalid with
  | [], _ => exact body_nil room base
  | t :: rest, hvalid =>
    obtain ⟨ht, hrest⟩ := hvalid
    obtain ⟨htRoom, hrestRoom⟩ := Nat.max_le.mp hroom
    rw [allSegments, tokensFrom_append]
    exact body_segments hbase t ht htRoom line (body_allSegments hbase rest hrest hrestRoom _)

/-- The branches of `elif` tags are derived from their segments. -/
theorem elifs_branchSegments (hbase : env.HasStandardTags base) (more : List (Written Condition × List Tree))
    (hvalid : BranchesValid (env.filterLookup base) more) {room : Nat} (hroom : branchDepth more ≤ room) :
    Derived (Elifs env (Body env room)) base (branchSegments more) (branchNodes more) := by
  intro line
  match more, hvalid with
  | [], _ => exact .nil
  | (condition, body) :: rest, hvalid =>
    obtain ⟨hcondition, hbody, hrest⟩ := hvalid
    obtain ⟨hbodyRoom, hrestRoom⟩ := Nat.max_le.mp hroom
    have helif : IsTagName "elif" := by decide
    have heads := tag_token helif condition.trimmed line
    have hread := HeaderReader.condition_written hcondition "elif"
    rw [branchSegments, tokensFrom_append, tokensFrom_cons]
    exact .cons heads.isBlock (heads.tagContent.symm ▸ hread) (body_allSegments hbase body hbody hbodyRoom _)
      (elifs_branchSegments hbase rest hrest hrestRoom _)

/-- What ends a block is derived from its segments. -/
theorem ending_endingSegments (hbase : env.HasStandardTags base) (otherwise : Option (List Tree))
    (hvalid : OptionValid (env.filterLookup base) otherwise) {room : Nat} (hroom : optionDepth otherwise ≤ room)
    {separates : Token → Prop} {separator endTag : String}
    (hseparates : ∀ line, separates ((tag separator "").token line)) (hend : IsTagName endTag) :
    Derived (Ending (Body env room) separates endTag) base (endingSegments separator endTag otherwise)
      (optionNodes otherwise) := by
  intro line
  match otherwise, hvalid with
  | none, _ => exact .without (heads_bare hend line).isBlock
  | some body, hvalid =>
    rw [endingSegments, tokensFrom_append, tokensFrom_cons]
    exact .withBody (hseparates line) (body_allSegments hbase body hvalid hroom _) (heads_bare hend _).isBlock

end

/-! ## Templates -/

mutual

/-- Every segment of a part is a text, or has a blank before its closing mark. -/
theorem isPadded_segments (t : Tree) : ∀ s ∈ t.segments, s.IsPadded := by
  match t with
  | .text s => simp [IsPadded]
  | .output e => simpa using delimited_isPadded .variable e.source
  | .choice condition body more otherwise =>
    simp only [segments, List.cons_append, List.forall_mem_cons, List.forall_mem_append]
    exact ⟨tag_isPadded _ _, ⟨isPadded_allSegments body, isPadded_branchSegments more⟩,
      isPadded_endingSegments _ _ otherwise⟩
  | .loop _ _ _ body empty =>
    simp only [segments, List.cons_append, List.forall_mem_cons, List.forall_mem_append]
    exact ⟨tag_isPadded _ _, isPadded_allSegments body, isPadded_endingSegments _ _ empty⟩
  | .binding _ body | .aliased _ _ body | .spaceless body | .filtered _ body =>
    simp only [segments, List.cons_append, List.forall_mem_cons, List.forall_mem_append]
    exact ⟨tag_isPadded _ _, isPadded_allSegments body, tag_isPadded _ _, by simp⟩
  | .equality _ _ _ whenTrue whenFalse =>
    simp only [segments, List.cons_append, List.forall_mem_cons, List.forall_mem_append]
    exact ⟨tag_isPadded _ _, isPadded_allSegments whenTrue, isPadded_endingSegments _ _ whenFalse⟩
  | .firstTrue _ => simpa using tag_isPadded _ _

theorem isPadded_allSegments (body : List Tree) : ∀ s ∈ allSegments body, s.IsPadded := by
  match body with
  | [] => simp
  | t :: rest =>
    rw [allSegments, List.forall_mem_append]
    exact ⟨isPadded_segments t, isPadded_allSegments rest⟩

theorem isPadded_branchSegments (more : List (Written Condition × List Tree)) :
    ∀ s ∈ branchSegments more, s.IsPadded := by
  match more with
  | [] => simp
  | (condition, body) :: rest =>
    simp only [branchSegments, List.cons_append, List.forall_mem_cons, List.forall_mem_append]
    exact ⟨tag_isPadded _ _, isPadded_allSegments body, isPadded_branchSegments rest⟩

theorem isPadded_endingSegments (separator endTag : String) (otherwise : Option (List Tree)) :
    ∀ s ∈ endingSegments separator endTag otherwise, s.IsPadded := by
  match otherwise with
  | none => simpa using tag_isPadded _ _
  | some body =>
    simp only [endingSegments, List.cons_append, List.forall_mem_cons, List.forall_mem_append]
    exact ⟨tag_isPadded _ _, isPadded_allSegments body, tag_isPadded _ _, by simp⟩

end

/-- The source of a legible template is scanned to the tokens of its segments. -/
theorem tokens_source {template : List Tree} (h : Legible (allSegments template)) :
    Lexer.tokens (source template) = (tokensFrom 1 (allSegments template), none) := by
  have hcanonical : Canonical (allSegments template) := h.canonical (isPadded_allSegments template)
  rw [Lexer.tokens, source, String.toList_ofList]
  exact Lexer.scan_source hcanonical 1

/-- A template that compiles is read to its end, with no tag left open. -/
theorem exists_run_of_compile_eq_ok (henv : env.StandardTagsOnly) {source : String} {nodes : List Node}
    (h : env.compile base source = .ok nodes) :
    ∃ s, (env.parse []).run (Session.ofSource source base) = .ok nodes s ∧ s.stream.unread = [] ∧
      s.stream.fault = none ∧ s.openTags = [] := by
  have hparse := parseAt_parsesBodies henv Environment.maxOpenTags [] (Session.ofSource source base)
  obtain ⟨s, hrun⟩ := exists_parse_of_compile_eq_ok h
  obtain ⟨u, htook, -, hstopped⟩ := hparse.of_ok hrun
  obtain ⟨hnil, hnone⟩ : s.stream.unread = [] ∧ s.stream.fault = none := hstopped
  exact ⟨s, hrun, hnil, hnone, htook.openTags_eq⟩

/-- Compiling the source of a template gives the nodes of the template, and leaves no token over. The template
is valid where the filters of the given libraries are active, legible, and not nested too deeply. -/
theorem compile_source (henv : env.StandardTagsOnly) (hbase : env.HasStandardTags base) {template : List Tree}
    (hvalid : AllValid (env.filterLookup base) template) (hlegible : Legible (allSegments template))
    (hdepth : allDepth template ≤ Environment.maxOpenTags) :
    env.compile base (source template) = .ok (allNodes template) ∧
      ∃ s, (env.parse []).run (Session.ofSource (source template) base) = .ok (allNodes template) s ∧
        s.stream.unread = [] ∧ s.stream.fault = none ∧ s.openTags = [] := by
  have hbody := body_allSegments hbase template hvalid hdepth 1
  have hcompile : env.compile base (source template) = .ok (allNodes template) := by
    rw [compile_eq_ok_iff henv, tokens_source hlegible]
    exact ⟨rfl, base, hbody⟩
  exact ⟨hcompile, exists_run_of_compile_eq_ok henv hcompile⟩

/-- A template with nested blocks, over two expressions, two conditions and a chain of filters. -/
def letter (x y : Expression) (known wanted : Written Condition) (chain : Written (List FilterCall)) : List Tree :=
  [.text "Dear ",
    .choice known
      [.output y, .loop ["a", "b"] x true [.equality true x y [.text "n"] (some [])] (some [.firstTrue [x, y]])]
      [(wanted, [.binding [("v", y), ("w", x)] [.text "p"]])]
      (some [.aliased x "v" [.filtered chain [.spaceless []]]])]

/-- The source of that template. -/
def letterSource : String :=
  "Dear \x7b% if x %\x7d\x7b\x7b y|upper \x7d\x7d\x7b% for a, b in x reversed %\x7d" ++
    "\x7b% ifnotequal x y|upper %\x7dn\x7b% else %\x7d\x7b% endifnotequal %\x7d" ++
    "\x7b% empty %\x7d\x7b% firstof x y|upper %\x7d\x7b% endfor %\x7d" ++
    "\x7b% elif not x %\x7d\x7b% with v=y|upper w=x %\x7dp\x7b% endwith %\x7d" ++
    "\x7b% else %\x7d\x7b% with x as v %\x7d\x7b% filter lower|upper %\x7d" ++
    "\x7b% spaceless %\x7d\x7b% endspaceless %\x7d\x7b% endfilter %\x7d\x7b% endwith %\x7d\x7b% endif %\x7d"

/-- Its segments. -/
def letterSegments : List Segment :=
  [⟨.text, "Dear ".toList⟩, tag "if" "x", delimited .variable "y|upper", tag "for" "a, b in x reversed",
    tag "ifnotequal" "x y|upper", ⟨.text, "n".toList⟩, tag "else" "", tag "endifnotequal" "", tag "empty" "",
    tag "firstof" "x y|upper", tag "endfor" "", tag "elif" "not x", tag "with" "v=y|upper w=x",
    ⟨.text, "p".toList⟩, tag "endwith" "", tag "else" "", tag "with" "x as v", tag "filter" "lower|upper",
    tag "spaceless" "", tag "endspaceless" "", tag "endfilter" "", tag "endwith" "", tag "endif" ""]

section Letter

variable {lookup : FilterLookup} {x y : Expression} {known wanted : Written Condition}
  {chain : Written (List FilterCall)}

theorem allSegments_letter (hx : x.source = "x") (hy : y.source = "y|upper") (hknown : known.text = "x")
    (hwanted : wanted.text = "not x") (hchain : chain.text = "lower|upper") :
    allSegments (letter x y known wanted chain) = letterSegments := by
  simp [letter, letterSegments, equalityName, Header.loopBits, Header.commaBits, Header.assignmentBit, hx, hy,
    hknown, hwanted, hchain]

theorem allDepth_letter : allDepth (letter x y known wanted chain) = 4 := by
  simp [letter, allDepth, depth, branchDepth, optionDepth]

/-- Every tag of the template is well-formed if what it was made of is. -/
theorem allValid_letter (hx : HeaderReader.IsBit lookup x) (hy : HeaderReader.IsBit lookup y)
    (hxLine : '\n' ∉ x.source.toList) (hyLine : '\n' ∉ y.source.toList)
    (hknown : Condition.parse (Pipeline.compile lookup) known.text = .ok known.value)
    (hwanted : Condition.parse (Pipeline.compile lookup) wanted.text = .ok wanted.value)
    (hchain : Pipeline.compileChain lookup chain.text = .ok chain.value) :
    AllValid lookup (letter x y known wanted chain) := by
  have hv : Text.IsName "v" := by decide
  have hw : Text.IsName "w" := by decide
  have hnames : ∀ name ∈ ["a", "b"], Header.IsLoopName name := by
    simpa using ⟨⟨by decide, by decide⟩, by decide, by decide⟩
  have hcandidates : ∀ e ∈ [x, y], HeaderReader.IsBit lookup e := by simpa using ⟨hx, hy⟩
  have hassigned : ∀ a ∈ [("v", y), ("w", x)], HeaderReader.IsAssigned lookup a :=
    List.forall_mem_cons.mpr ⟨⟨hv, hy, hyLine⟩, List.forall_mem_singleton.mpr ⟨hw, hx, hxLine⟩⟩
  have hequality : (equality true x y [text "n"] (some [])).Valid lookup := ⟨⟨hx, hy⟩, ⟨trivial, trivial⟩, trivial⟩
  have hloop : (loop ["a", "b"] x true [equality true x y [text "n"] (some [])] (some [firstTrue [x, y]])).Valid
      lookup := ⟨⟨by simp, hnames, hx⟩, ⟨hequality, trivial⟩, ⟨by simp, hcandidates⟩, trivial⟩
  have hbinding : (binding [("v", y), ("w", x)] [text "p"]).Valid lookup :=
    ⟨⟨by simp, hassigned⟩, trivial, trivial⟩
  have haliased : (aliased x "v" [filtered chain [spaceless []]]).Valid lookup :=
    ⟨⟨hx, hv⟩, ⟨hchain, trivial, trivial⟩, trivial⟩
  have hchoice : (choice known
      [output y, loop ["a", "b"] x true [equality true x y [text "n"] (some [])] (some [firstTrue [x, y]])]
      [(wanted, [binding [("v", y), ("w", x)] [text "p"]])]
      (some [aliased x "v" [filtered chain [spaceless []]]])).Valid lookup :=
    ⟨hknown, ⟨hy.compiles, hloop, trivial⟩, ⟨hwanted, ⟨hbinding, trivial⟩, trivial⟩, haliased, trivial⟩
  exact ⟨trivial, hchoice, trivial⟩

end Letter

/-- The template compiles to its nodes, with four tags open at once in its last branch. -/
theorem compile_source_letter : ∃ template : List Tree, source template = letterSource ∧
    (Environment.standard .latest).StandardTagsOnly ∧ (Environment.standard .latest).HasStandardTags [0, 1] ∧
      AllValid ((Environment.standard .latest).filterLookup [0, 1]) template ∧ Legible (allSegments template) ∧
      allDepth template = 4 ∧ (Environment.standard .latest).compile [0, 1] letterSource = .ok (allNodes template) ∧
      ∃ s, ((Environment.standard .latest).parse []).run (Session.ofSource letterSource [0, 1]) =
        .ok (allNodes template) s ∧ s.stream.unread = [] := by
  have henv := Environment.standard_standardTagsOnly .latest
  have hbase := Environment.standard_hasStandardTags .latest
  let lookup := (Environment.standard .latest).filterLookup [0, 1]
  obtain ⟨x, hx⟩ := exists_of_isOk (r := Pipeline.compile lookup "x") (by decide +kernel)
  obtain ⟨y, hy⟩ := exists_of_isOk (r := Pipeline.compile lookup "y|upper") (by decide +kernel)
  obtain ⟨known, hknown⟩ :=
    exists_of_isOk (r := Condition.parse (Pipeline.compile lookup) "x") (by decide +kernel)
  obtain ⟨wanted, hwanted⟩ :=
    exists_of_isOk (r := Condition.parse (Pipeline.compile lookup) "not x") (by decide +kernel)
  obtain ⟨calls, hcalls⟩ := exists_of_isOk (r := Pipeline.compileChain lookup "lower|upper") (by decide +kernel)
  obtain ⟨hxSource, -, -, -⟩ := Pipeline.compile_eq_ok hx
  obtain ⟨hySource, -, -, -⟩ := Pipeline.compile_eq_ok hy
  have hxBit : HeaderReader.IsBit lookup x := ⟨hxSource.symm ▸ hx, hxSource.symm ▸ by decide +kernel⟩
  have hyBit : HeaderReader.IsBit lookup y := ⟨hySource.symm ▸ hy, hySource.symm ▸ by decide +kernel⟩
  let template := letter x y ⟨"x", known, by decide⟩ ⟨"not x", wanted, by decide⟩
    ⟨"lower|upper", calls, by decide⟩
  have hvalid : AllValid lookup template :=
    allValid_letter hxBit hyBit (hxSource.symm ▸ by decide) (hySource.symm ▸ by decide) hknown hwanted hcalls
  have hsegments : allSegments template = letterSegments := allSegments_letter hxSource hySource rfl rfl rfl
  have hlegible : Legible (allSegments template) := by
    rw [hsegments]
    exact ⟨by decide +kernel, by decide +kernel, by decide +kernel⟩
  have hsource : source template = letterSource := by
    rw [source, hsegments]
    decide +kernel
  have hdepth : allDepth template ≤ Environment.maxOpenTags := allDepth_letter.trans_le (by decide)
  obtain ⟨hcompile, s, hrun, hunread, -, -⟩ := compile_source henv hbase hvalid hlegible hdepth
  rw [hsource] at hcompile hrun
  exact ⟨template, hsource, henv, hbase, hvalid, hlegible, allDepth_letter, hcompile, s, hrun, hunread⟩

end Tree

end TextTemplate
