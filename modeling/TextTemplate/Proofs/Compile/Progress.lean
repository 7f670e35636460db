import TextTemplate.Proofs.Compile.Grammar

/-!
# Compiling token by token

The compiler descends into the bodies of blocks. Here the same work is done in one pass with a stack: each
token takes the progress made so far one step further, an open block waits on the stack until one of its
terminators comes, and at the end of the tokens the stack tells whether a block was left open. Every derivation
of a body is a run that leaves the stack as it was and adds the nodes of the body to those before it.
-/

namespace TextTemplate

/-- What an open block has compiled so far, apart from the body that is being compiled. -/
inductive Stage where
  | branch (before : List (Condition × List Node)) (c : Condition)
  | otherwise (branches : List (Condition × List Node))
  | loopBody (header : Header.Loop) (sequence : Expression)
  | loopEmpty (header : Header.Loop) (sequence : Expression) (nodes : List Node)
  | bindingBody (found : List (String × Expression))
  | whenTrue (negated : Bool) (left right : Expression)
  | whenFalse (negated : Bool) (left right : Expression) (nodes : List Node)
  | spacelessBody
  | filteredBody (calls : List FilterCall)
  | skipped
  | verbatim (source : List String)

namespace Stage

/-- The block tags that a block waits for. -/
def awaited : Stage → List String
  | branch .. => ["elif", "else", "endif"]
  | otherwise .. => ["endif"]
  | loopBody .. => ["empty", "endfor"]
  | loopEmpty .. => ["endfor"]
  | bindingBody .. => ["endwith"]
  | whenTrue false .. => ["else", "endifequal"]
  | whenTrue true .. => ["else", "endifnotequal"]
  | whenFalse false .. => ["endifequal"]
  | whenFalse true .. => ["endifnotequal"]
  | spacelessBody => ["endspaceless"]
  | filteredBody .. => ["endfilter"]
  | skipped => ["endcomment"]
  | verbatim .. => ["endverbatim"]

/-- Whether the tokens inside are kept from the compiler. -/
def isOpaque : Stage → Bool
  | skipped | verbatim .. => true
  | _ => false

/-- Take note of a token that is kept from the compiler. -/
def keep (t : Token) : Stage → Stage
  | verbatim source => verbatim (source ++ [t.raw])
  | stage => stage

/-- Everything that some block waits for. -/
def terminators : List String :=
  ["elif", "else", "endif", "empty", "endfor", "endwith", "endifequal", "endifnotequal", "endspaceless",
    "endfilter", "endcomment", "endverbatim"]

theorem awaited_subset (stage : Stage) : stage.awaited ⊆ terminators := by
  cases stage with
  | whenTrue negated | whenFalse negated => cases negated <;> simp [awaited, terminators]
  | _ => simp [awaited, terminators]

/-- No terminator opens a block. -/
theorem ofName?_of_mem_awaited {stage : Stage} {name : String} (h : name ∈ stage.awaited) :
    Directive.ofName? name = none := by
  have hnone : ∀ n ∈ terminators, Directive.ofName? n = none := by decide
  exact hnone name (stage.awaited_subset h)

end Stage

/-- What becomes of an open block when one of its terminators comes. -/
inductive Resumed where
  | again (stage : Stage)
  | closed (node : Option Node)

/-- Go on with an open block, given the nodes of its body and the terminator after it. -/
def Stage.resume (lookup : FilterLookup) (nodes : List Node) (t : Token) : Stage → Except CompileError Resumed
  | branch before c =>
    if t.tagName = "elif" then
      match HeaderReader.condition lookup "elif" t.tagContent with
      | .ok c' => .ok (.again (.branch (before ++ [(c, nodes)]) c'))
      | .error e => .error (e.atLine t.line)
    else if t.tagName = "else" then
      if t.tagContent = "" then .ok (.again (.otherwise (before ++ [(c, nodes)])))
      else .error ⟨.header (.noArgumentsTaken "else"), some t.line⟩
    else .ok (.closed (some (.choice (before ++ [(c, nodes)]) none)))
  | otherwise branches => .ok (.closed (some (.choice branches (some nodes))))
  | loopBody header sequence =>
    if t.tagName = "empty" then .ok (.again (.loopEmpty header sequence nodes))
    else .ok (.closed (some (.loop header.names sequence header.reversed nodes [])))
  | loopEmpty header sequence body =>
    .ok (.closed (some (.loop header.names sequence header.reversed body nodes)))
  | bindingBody found => .ok (.closed (some (.binding found nodes)))
  | whenTrue negated left right =>
    if t.tagName = "else" then .ok (.again (.whenFalse negated left right nodes))
    else .ok (.closed (some (.equality negated left right nodes [])))
  | whenFalse negated left right body => .ok (.closed (some (.equality negated left right body nodes)))
  | spacelessBody => .ok (.closed (some (.spaceless nodes)))
  | filteredBody calls => .ok (.closed (some (.filtered calls nodes)))
  | skipped => .ok (.closed none)
  | verbatim source => .ok (.closed (some (.text (String.join source))))

/-- What a block tag is once its header is read: complete, or a block with a body to come. -/
inductive Opening where
  | leaf (node : Option Node) (active : List Nat)
  | block (stage : Stage)

/-- Read the header of a directive. -/
def Directive.opening (env : Environment) (active : List Nat) (content : String) :
    Directive → Except CompileError Opening
  | load => return .leaf none (← HeaderReader.load env active content)
  | comment => .ok (.block .skipped)
  | verbatim => .ok (.block (.verbatim []))
  | conditional => return .block (.branch [] (← HeaderReader.condition (env.filterLookup active) "if" content))
  | loop => do
    let (header, sequence) ← HeaderReader.loop (env.filterLookup active) content
    return .block (.loopBody header sequence)
  | binding => return .block (.bindingBody (← HeaderReader.bindings (env.filterLookup active) content))
  | equality => do
    let (left, right) ← HeaderReader.operands (env.filterLookup active) "ifequal" content
    return .block (.whenTrue false left right)
  | inequality => do
    let (left, right) ← HeaderReader.operands (env.filterLookup active) "ifnotequal" content
    return .block (.whenTrue true left right)
  | firstOf => return .leaf (some (.firstTrue (← HeaderReader.candidates (env.filterLookup active) content))) active
  | symbol => return .leaf (some (.text (← HeaderReader.symbol content))) active
  | spaceless => .ok (.block .spacelessBody)
  | filtered => return .block (.filteredBody (← Pipeline.compileChain (env.filterLookup active) content))

/-- A block on the stack, with the nodes that stand before it in the body around it. -/
structure OpenBlock where
  opener : Token
  stage : Stage
  before : List Node

/-- How far a template has been compiled. -/
structure Progress where
  active : List Nat
  /-- The nodes of the body that is being compiled. -/
  nodes : List Node
  /-- The open blocks, innermost first. -/
  blocks : List OpenBlock

namespace Progress

variable (env : Environment)

/-- The progress at the start of a template. -/
def start (base : List Nat) : Progress := ⟨base, [], []⟩

/-- Open the block tag of a directive. -/
def enter (p : Progress) (d : Directive) (t : Token) : Except CompileError Progress :=
  match d.opening env p.active t.tagContent with
  | .error e => .error (e.atLine t.line)
  | .ok (.leaf node active) => .ok ⟨active, p.nodes ++ node.toList, p.blocks⟩
  | .ok (.block stage) => .ok ⟨p.active, [], ⟨t, stage, p.nodes⟩ :: p.blocks⟩

/-- Compile a token that ends nothing; `stop` are the block tags that are waited for. -/
def item (p : Progress) (stop : List String) (t : Token) : Except CompileError Progress :=
  match t.kind with
  | .text => .ok { p with nodes := p.nodes ++ [.text t.content] }
  | .variable =>
    if t.content.isEmpty then .error ⟨.emptyVariableTag, some t.line⟩
    else
      match Pipeline.compile (env.filterLookup p.active) t.content with
      | .ok e => .ok { p with nodes := p.nodes ++ [.output e] }
      | .error e => .error (e.atLine t.line)
  | .comment => .ok p
  | .block =>
    if t.tagName.isEmpty then .error ⟨.emptyBlockTag, some t.line⟩
    else
      match env.directive? p.active t.tagName with
      | none => .error ⟨.unknownTag t.tagName stop, some t.line⟩
      | some d =>
        if Environment.maxOpenTags ≤ p.blocks.length then
          .error ⟨.tooManyOpenTags Environment.maxOpenTags, some t.line⟩
        else p.enter env d t

/-- Whether the innermost open block waits for a token. -/
def awaits (blocks : List OpenBlock) (t : Token) : Bool :=
  match blocks with
  | [] => false
  | b :: _ => t.kind == .block && b.stage.awaited.contains t.tagName

/-- Compile one token. -/
def step (p : Progress) (t : Token) : Except CompileError Progress :=
  match p.blocks with
  | [] => p.item env [] t
  | b :: outer =>
    if awaits p.blocks t then
      match b.stage.resume (env.filterLookup p.active) p.nodes t with
      | .error e => .error e
      | .ok (.again stage) => .ok ⟨p.active, [], { b with stage := stage } :: outer⟩
      | .ok (.closed node) => .ok ⟨p.active, b.before ++ node.toList, outer⟩
    else if b.stage.isOpaque then .ok { p with blocks := { b with stage := b.stage.keep t } :: outer }
    else p.item env b.stage.awaited t

/-- Compile tokens one after the other. -/
def run (tokens : List Token) (p : Progress) : Except CompileError Progress :=
  tokens.foldlM (fun p t => p.step env t) p

/-- The outcome at the end of the tokens, where `fault` is met if there is one. -/
def finish (p : Progress) (fault : Option CompileError) : Except CompileError (List Node) :=
  match fault, p.blocks with
  | some e, _ => .error e
  | none, b :: _ => .error ⟨.unclosedTag (some b.opener.tagName) b.stage.awaited, some b.opener.line⟩
  | none, [] => .ok p.nodes

/-- The outcome of compiling the tokens that are left. -/
def outcome (p : Progress) (tokens : List Token) (fault : Option CompileError) :
    Except CompileError (List Node) := do
  (← run env tokens p).finish fault

@[simp] theorem run_nil (p : Progress) : run env [] p = .ok p := rfl

theorem run_cons (t : Token) (tokens : List Token) (p : Progress) :
    run env (t :: tokens) p = (do run env tokens (← p.step env t)) := rfl

/-- Running over a concatenation is running over its parts in order. -/
theorem run_append (u w : List Token) (p : Progress) :
    run env (u ++ w) p = (do run env w (← run env u p)) := by
  rw [run, List.foldlM_append]
  rfl

variable {env} {p p' : Progress} {t : Token} {u w : List Token}

theorem run_cons_ok (h : p.step env t = .ok p') : run env (t :: u) p = run env u p' := by
  rw [run_cons, h]
  rfl

theorem run_append_ok (h : run env u p = .ok p') : run env (u ++ w) p = run env w p' := by
  rw [run_append, h]
  rfl

/-- The outcome depends on the tokens read so far only through the progress made. -/
theorem outcome_append_ok (h : run env u p = .ok p') (fault : Option CompileError) :
    p.outcome env (u ++ w) fault = p'.outcome env w fault := by
  rw [outcome, run_append_ok h]
  rfl

theorem outcome_cons (t : Token) (u : List Token) (fault : Option CompileError) :
    p.outcome env (t :: u) fault = (do (← p.step env t).outcome env u fault) := by
  rw [outcome, run_cons]
  cases p.step env t <;> rfl

/-- The bodies that are compiled: at the top, and in blocks that keep nothing from the compiler. -/
def Compiles (blocks : List OpenBlock) : Prop := ∀ b ∈ blocks.head?, b.stage.isOpaque = false

/-- The terminators of the innermost open block. -/
def stopSet (blocks : List OpenBlock) : List String :=
  match blocks with
  | [] => []
  | b :: _ => b.stage.awaited

/-- A token that is not waited for is compiled as an item. -/
theorem step_eq_item (hc : Compiles p.blocks) (ht : awaits p.blocks t = false) :
    p.step env t = p.item env (stopSet p.blocks) t := by
  rcases p with ⟨a, nodes, _ | ⟨b, outer⟩⟩
  · rfl
  · have hb : b.stage.isOpaque = false := hc b rfl
    simp [step, ht, hb, stopSet]

/-- Only block tags are waited for. -/
theorem awaits_eq_false_of_kind {blocks : List OpenBlock} (h : t.kind ≠ .block) : awaits blocks t = false := by
  cases blocks with
  | nil => rfl
  | cons b outer => simp [awaits, h]

/-- A tag that opens a block is not waited for. -/
theorem awaits_eq_false_of_opens {a : List Nat} {d : Directive} (h : Grammar.Opens env a d t)
    (blocks : List OpenBlock) : awaits blocks t = false := by
  cases blocks with
  | nil => rfl
  | cons b outer =>
    have hname := Environment.directive?_name h.2
    have hnot : t.tagName ∉ b.stage.awaited := fun hmem => by
      have := Stage.ofName?_of_mem_awaited hmem
      rw [Directive.ofName?_eq_some_iff.mpr hname] at this
      cases this
    simp [awaits, hnot]

/-- Where there is room for it, a block tag is entered. -/
theorem item_eq_enter {k : Directive} (ht : t.kind = .block) (hk : env.directive? p.active t.tagName = some k)
    (hroom : p.blocks.length < Environment.maxOpenTags) (stop : List String) :
    p.item env stop t = p.enter env k t := by
  simp only [item, ht, Environment.directive?_isEmpty hk, Bool.false_eq_true, if_false, hk,
    if_neg (Nat.not_le.mpr hroom)]

/-- So it is, unless it is waited for. -/
theorem step_eq_enter {d : Directive} (hc : Compiles p.blocks) (ht : Grammar.Opens env p.active d t)
    (hroom : p.blocks.length < Environment.maxOpenTags) : p.step env t = p.enter env d t := by
  rw [step_eq_item hc (awaits_eq_false_of_opens ht _)]
  exact item_eq_enter ht.1 ht.2 hroom _

/-- A terminator resumes the innermost block. -/
theorem step_awaited (env : Environment) (a : List Nat) (nodes : List Node) (b : OpenBlock)
    (outer : List OpenBlock) {name : String} (ht : t.isBlock name) (hmem : name ∈ b.stage.awaited) :
    step env ⟨a, nodes, b :: outer⟩ t =
      match b.stage.resume (env.filterLookup a) nodes t with
      | .error e => .error e
      | .ok (.again stage) => .ok ⟨a, [], { b with stage := stage } :: outer⟩
      | .ok (.closed node) => .ok ⟨a, b.before ++ node.toList, outer⟩ := by
  obtain ⟨hkind, rfl⟩ := Token.isBlock_iff.mp ht
  have hawaits : awaits (b :: outer) t = true := by simp [awaits, hkind, hmem]
  simp [step, hawaits]

end Progress

end TextTemplate
