import TextTemplate.Proofs.Compile.WellNested
import TextTemplate.Proofs.Node.Calls
import TextTemplate.Proofs.Node.Watch
import TextTemplate.Proofs.Tag.Header

/-!
# Compiled trees are well-formed

Wherever an operand stands in a compiled tree, it is a literal or a path without private or empty segments, and
wherever a filter is called, it takes the arguments that the call passes. Rendering asks the data for nothing
else: it resolves operands of the tree only, and calls filters as the calls of the tree say.
-/

namespace TextTemplate

/-! ## Public paths -/

namespace Operand

/-- The segment is not empty, has no dot in it and does not start with an underscore. -/
def IsPublicSegment (segment : String) : Prop :=
  segment ≠ "" ∧ '.' ∉ segment.toList ∧ segment.toList.head? ≠ some '_'

/-- The operand is a literal or a path of public segments. -/
def IsPublic (o : Operand) : Prop :=
  match o.meaning with
  | .literal _ => True
  | .path first rest => ∀ segment ∈ first :: rest, IsPublicSegment segment

theorem isPublicSegment_of_checkSegments {source : String} {segments : List (List Char)}
    (hcheck : checkSegments source segments = .ok ()) (hdots : ∀ segment ∈ segments, '.' ∉ segment) :
    ∀ segment ∈ segments.map String.ofList, IsPublicSegment segment := by
  induction segments with
  | nil => exact List.forall_mem_nil _
  | cons segment rest ih =>
    obtain ⟨hdot, hrest⟩ := List.forall_mem_cons.mp hdots
    cases segment with
    | nil => cases hcheck
    | cons c more =>
      rw [checkSegments] at hcheck
      split at hcheck
      · cases hcheck
      · rename_i hc
        refine List.forall_mem_cons.mpr ⟨⟨?_, by simpa using hdot, by simpa using hc⟩, ih hcheck hrest⟩
        exact fun h => by simpa using congrArg String.toList h

/-- What is read as a path has public segments only. -/
theorem isPublicSegment_of_path {s : List Char} {first : String} {rest : List String}
    (h : path s = .ok (.path first rest)) : ∀ segment ∈ first :: rest, IsPublicSegment segment := by
  rw [path] at h
  split at h
  · cases h
  · rename_i hcheck
    split at h
    · cases h
    · rename_i hsegments
      cases h
      rw [← hsegments]
      exact isPublicSegment_of_checkSegments hcheck fun _ => Text.not_mem_of_mem_splitAtChar

/-- What is read as an operand is public; the readings that come before that as a path give literals. -/
theorem isPublic_of_ofChars {s : List Char} {o : Operand} (h : ofChars s = .ok o) : o.IsPublic := by
  rw [ofChars] at h
  split at h
  · rename_i meaning hmeaning
    cases h
    cases meaning with
    | literal v => trivial
    | path first rest =>
      rw [meaningOf] at hmeaning
      split at hmeaning
      · cases hmeaning
      · cases hmeaning
      split at hmeaning
      · cases hmeaning
      split at hmeaning
      · cases hmeaning
      exact isPublicSegment_of_path hmeaning
  · cases h

end Operand

/-! ## Well-formed pipelines -/

/-- The filter takes the arguments that the call passes, as far as its signature is known. -/
def FilterCall.Fits (c : FilterCall) : Prop := c.filter.accepts (argumentCount c.argument) = true

/-- All operands of the pipeline are public and all its calls fit. -/
structure Pipe.WellFormed (p : Pipe) : Prop where
  operands : ∀ o ∈ p.operands, o.IsPublic
  calls : ∀ c ∈ p.calls, c.Fits

namespace Pipeline

variable {lookup : FilterLookup}

theorem Step.Means.isPublic {step : Step} {c : FilterCall} (h : step.Means lookup c) :
    ∀ o ∈ c.argument, o.IsPublic := by
  obtain ⟨name, filter, argument⟩ := c
  intro o ho
  obtain rfl : argument = some o := ho
  have hrel := h.argument
  generalize step.argument = text at hrel
  cases hrel with
  | some hread => exact Operand.isPublic_of_ofChars hread

end Pipeline

namespace Pipe

variable {p : Pipe}

theorem wellFormed_of_means {lookup : FilterLookup} (hoperand : ∀ o ∈ p.operand, o.IsPublic)
    (hmeans : ∀ c ∈ p.calls, ∃ step : Pipeline.Step, step.Means lookup c) : p.WellFormed := by
  refine ⟨List.forall_mem_append.mpr ⟨by simpa using hoperand, fun o ho => ?_⟩, fun c hc => ?_⟩
  · obtain ⟨c, hc, ho⟩ := List.mem_filterMap.mp ho
    obtain ⟨step, hstep⟩ := hmeans c hc
    exact hstep.isPublic o ho
  · obtain ⟨step, hstep⟩ := hmeans c hc
    exact hstep.accepts

/-- Every pipeline that a text compiles to is well-formed. -/
theorem CompiledWith.wellFormed {lookup : FilterLookup} (h : p.CompiledWith lookup) : p.WellFormed := by
  obtain ⟨source, e, he, rfl⟩ | ⟨source, calls, hcalls, rfl⟩ := h
  · obtain ⟨text, steps, -, -, hoperand, -⟩ := Pipeline.exists_reads_of_compile he
    refine wellFormed_of_means ?_ (Pipeline.means_of_compile he)
    intro o ho
    obtain rfl : e.operand = o := Option.some.inj ho
    exact Operand.isPublic_of_ofChars hoperand
  · exact wellFormed_of_means nofun (Pipeline.means_of_compileChain hcalls)

end Pipe

/-! ## What rendering asks of the data -/

namespace WatchM

variable {α β : Type} {Q : RenderEvent → Prop} {m : WatchM α}

/-- Every event of every run is one that `Q` allows. -/
def Asks (Q : RenderEvent → Prop) (m : WatchM α) : Prop := ∀ s, ∀ entry ∈ m.entries s, Q entry.event

theorem asks_pure (a : α) : (pure a : WatchM α).Asks Q := fun _ _ => nofun

theorem asks_quietly (m : RenderM α) : (quietly m).Asks Q := fun _ _ => nofun

theorem asks_lookup {o : Operand} (h : Q (.lookup o)) : (lookup o).Asks Q := fun _ =>
  List.forall_mem_singleton.mpr h

theorem asks_call {f : Filter} {arguments : List Value} (h : Q (.call f arguments)) : (call f arguments).Asks Q :=
  fun _ => List.forall_mem_singleton.mpr h

/-- A sequence asks what its parts ask. -/
theorem Asks.bind {f : α → WatchM β} (hm : m.Asks Q) (hf : ∀ a, (f a).Asks Q) : (m >>= f).Asks Q := by
  intro s
  rw [entries_bind]
  refine List.forall_mem_append.mpr ⟨hm s, ?_⟩
  cases m.plain s with
  | ok a s' => exact hf a s'
  | error e s' => exact List.forall_mem_nil _

theorem Asks.ifMissing {f : α → WatchM β} {g : WatchM β} (hm : m.Asks Q) (hf : ∀ a, (f a).Asks Q)
    (hg : g.Asks Q) : (ifMissing m f g).Asks Q := by
  intro s
  rw [entries_ifMissing]
  refine List.forall_mem_append.mpr ⟨hm s, ?_⟩
  cases m.plain s with
  | ok a s' => exact hf a s'
  | error failure s' =>
    cases failure with
    | missing path segment => exact hg s'
    | _ => exact List.forall_mem_nil _

theorem Asks.withScope (hm : m.Asks Q) (scope : Scope) : (withScope scope m).Asks Q := fun _ => hm _

end WatchM

open WatchM

variable {Q : RenderEvent → Prop}

/-- The events of running a pipeline are ones that `Q` allows. -/
structure Pipe.Permits (Q : RenderEvent → Prop) (p : Pipe) : Prop where
  lookups : ∀ o ∈ p.operands, Q (.lookup o)
  calls : ∀ c ∈ p.calls, ∀ arguments : List Value, arguments.length = FilterCall.argumentCount c.argument →
    Q (.call c.filter arguments)

namespace Pipe.Permits

theorem tail {operand : Option Operand} {c : FilterCall} {rest : List FilterCall}
    (h : Pipe.Permits Q ⟨operand, c :: rest⟩) : Pipe.Permits Q ⟨none, rest⟩ where
  lookups o ho := by
    refine h.lookups o (List.mem_append_right _ ?_)
    obtain ⟨c', hc', ho⟩ := List.mem_filterMap.mp ho
    exact List.mem_filterMap.mpr ⟨c', List.mem_cons_of_mem _ hc', ho⟩
  calls c' hc' := h.calls c' (List.mem_cons_of_mem _ hc')

theorem chain {operand : Option Operand} {calls : List FilterCall} (h : Pipe.Permits Q ⟨operand, calls⟩) :
    Pipe.Permits Q ⟨none, calls⟩ := ⟨fun o ho => h.lookups o (List.mem_append_right _ ho), h.calls⟩

end Pipe.Permits

theorem FilterCall.watch_asks {operand : Option Operand} {c : FilterCall} {rest : List FilterCall}
    (h : Pipe.Permits Q ⟨operand, c :: rest⟩) (v : Value) : (c.watch v).Asks Q := by
  have hcall := h.calls c List.mem_cons_self
  rw [watch]
  cases hargument : c.argument with
  | none => exact asks_call (hcall _ (by rw [hargument]; rfl))
  | some a =>
    have ha : a ∈ (c :: rest).filterMap (·.argument) := List.mem_filterMap.mpr ⟨c, List.mem_cons_self, hargument⟩
    exact (asks_lookup (h.lookups a (List.mem_append_right _ ha))).bind fun _ =>
      asks_call (hcall _ (by rw [hargument]; rfl))

theorem FilterCall.watchAll_asks {calls : List FilterCall} (h : Pipe.Permits Q ⟨none, calls⟩) (v : Value) :
    (watchAll calls v).Asks Q := by
  induction calls generalizing v with
  | nil => exact asks_pure v
  | cons c rest ih => exact (watch_asks h v).bind (ih h.tail)

namespace Expression

variable {e : Expression} (h : e.pipe.Permits Q)
include h

theorem watch_asks (onMissing : OnMissing) : (e.watch onMissing).Asks Q := by
  have hcalls := FilterCall.watchAll_asks h.chain
  refine Asks.ifMissing (asks_lookup (h.lookups _ (List.mem_append_left _ List.mem_cons_self))) hcalls ?_
  cases onMissing with
  | ignore => exact hcalls .none
  | substitute =>
    refine (asks_quietly _).bind fun s => ?_
    split
    · exact hcalls (.text "")
    · exact asks_pure _

theorem watchRender_asks : e.watchRender.Asks Q := (watch_asks h _).bind fun _ => asks_quietly _

end Expression

theorem Condition.watch_asks {c : Condition} (h : ∀ p ∈ c.pipes, p.Permits Q) : c.watch.Asks Q := by
  induction c with
  | operand e =>
    exact (e.watch_asks (h _ List.mem_cons_self) _).bind fun _ => (asks_quietly _).bind fun _ => asks_pure _
  | comparison left op right =>
    obtain ⟨hleft, hright⟩ := List.forall_mem_cons.mp h
    exact (left.watch_asks hleft _).bind fun _ =>
      (right.watch_asks (hright _ List.mem_cons_self) _).bind fun _ => asks_quietly _
  | group inside ih => exact ih h
  | not inside ih => exact (ih h).bind fun _ => asks_pure _
  | and left right ihleft ihright =>
    obtain ⟨hleft, hright⟩ := List.forall_mem_append.mp h
    refine (ihleft hleft).bind fun b => ?_
    cases b
    · exact asks_pure _
    · exact ihright hright
  | or left right ihleft ihright =>
    obtain ⟨hleft, hright⟩ := List.forall_mem_append.mp h
    refine (ihleft hleft).bind fun b => ?_
    cases b
    · exact ihright hright
    · exact asks_pure _

namespace Loop

/-- The rounds of a loop ask what each of them asks. -/
theorem watchRun_asks {item? : Nat → EvalM (Option Value)} {body : Nat → Value → WatchM String}
    (hbody : ∀ index item, (body index item).Asks Q) (fuel index : Nat) :
    (watchRun item? body fuel index).Asks Q := by
  induction fuel generalizing index with
  | zero => exact asks_pure ""
  | succ fuel ih =>
    refine (asks_quietly _).bind fun found => ?_
    cases found with
    | none => exact asks_pure ""
    | some item => exact (hbody index item).bind fun _ => (ih (index + 1)).bind fun _ => asks_pure _

theorem watch_asks (names : List String) {sequence : Expression} (h : sequence.pipe.Permits Q) (reversed : Bool)
    {body empty : WatchM String} (hbody : body.Asks Q) (hempty : empty.Asks Q) :
    (watch names sequence reversed body empty).Asks Q := by
  refine (sequence.watch_asks h _).bind fun v => (asks_quietly _).bind fun source => ?_
  split
  · exact hempty
  split
  · exact asks_quietly _
  refine (asks_quietly _).bind fun id => (asks_quietly _).bind fun outer => (asks_quietly _).bind fun s => ?_
  exact (watchRun_asks (fun index item => (asks_quietly _).bind fun _ => hbody) _ 0).withScope _

end Loop

namespace Node

theorem watchAssignments_asks {assignments : List (String × Expression)}
    (h : ∀ p ∈ assignments.map (·.2.pipe), p.Permits Q) : (watchAssignments assignments).Asks Q := by
  induction assignments with
  | nil => exact asks_pure []
  | cons a rest ih =>
    obtain ⟨hfirst, hrest⟩ := List.forall_mem_cons.mp h
    exact (a.2.watch_asks hfirst _).bind fun _ => (ih hrest).bind fun _ => asks_pure _

theorem watchFirstTrue_asks {candidates : List Expression} (h : ∀ p ∈ candidates.map (·.pipe), p.Permits Q) :
    (watchFirstTrue candidates).Asks Q := by
  induction candidates with
  | nil => exact asks_pure ""
  | cons e rest ih =>
    obtain ⟨hfirst, hrest⟩ := List.forall_mem_cons.mp h
    refine (e.watch_asks hfirst _).bind fun v => (asks_quietly _).bind fun s => ?_
    split
    · exact asks_quietly _
    · exact ih hrest

theorem watchEqual_asks {left right : Expression} (hleft : left.pipe.Permits Q) (hright : right.pipe.Permits Q) :
    (watchEqual left right).Asks Q :=
  (left.watch_asks hleft _).bind fun _ => (right.watch_asks hright _).bind fun _ => asks_quietly _

mutual

theorem watch_asks : (n : Node) → (∀ p ∈ n.pipes, p.Permits Q) → n.watch.Asks Q
  | text s, _ => asks_pure s
  | output e, h => e.watchRender_asks (h _ List.mem_cons_self)
  | choice branches otherwise, h => by
    rw [pipes] at h
    obtain ⟨hbranches, hotherwise⟩ := List.forall_mem_append.mp h
    exact watchBranches_asks (watchOption_asks otherwise hotherwise) branches hbranches
  | loop names sequence reversed body empty, h => by
    rw [pipes] at h
    obtain ⟨hbody, hempty⟩ := List.forall_mem_append.mp h
    obtain ⟨hsequence, hbody⟩ := List.forall_mem_cons.mp hbody
    exact Loop.watch_asks names hsequence reversed (watchAll_asks body hbody) (watchAll_asks empty hempty)
  | binding assignments body, h => by
    rw [pipes] at h
    obtain ⟨hassignments, hbody⟩ := List.forall_mem_append.mp h
    exact (watchAssignments_asks hassignments).bind fun _ => (watchAll_asks body hbody).withScope _
  | equality negated left right whenTrue whenFalse, h => by
    rw [pipes] at h
    obtain ⟨h, hfalse⟩ := List.forall_mem_append.mp h
    obtain ⟨h, htrue⟩ := List.forall_mem_append.mp h
    obtain ⟨hleft, hright⟩ := List.forall_mem_cons.mp h
    refine (watchEqual_asks hleft (hright _ List.mem_cons_self)).bind fun equal => ?_
    split
    · exact watchAll_asks whenTrue htrue
    · exact watchAll_asks whenFalse hfalse
  | firstTrue candidates, h => by
    rw [pipes] at h
    exact watchFirstTrue_asks h
  | spaceless body, h => (watchAll_asks body h).bind fun _ => asks_pure _
  | filtered calls body, h => by
    rw [pipes] at h
    obtain ⟨hcalls, hbody⟩ := List.forall_mem_cons.mp h
    exact (watchAll_asks body hbody).bind fun _ =>
      (FilterCall.watchAll_asks hcalls _).bind fun _ => asks_quietly _
  | labelled _ body, h => (watchAll_asks body h).bind fun _ => asks_pure _
  | marker s, _ => asks_pure s

/-- Rendering asks of the data what the pipelines of the tree permit. -/
theorem watchAll_asks : (nodes : List Node) → (∀ p ∈ allPipes nodes, p.Permits Q) → (watchAll nodes).Asks Q
  | [], _ => asks_pure ""
  | n :: rest, h => by
    rw [allPipes] at h
    obtain ⟨hfirst, hrest⟩ := List.forall_mem_append.mp h
    exact (watch_asks n hfirst).bind fun _ => (watchAll_asks rest hrest).bind fun _ => asks_pure _

theorem watchBranches_asks {otherwise : WatchM String} (hotherwise : otherwise.Asks Q) :
    (branches : List (Condition × List Node)) → (∀ p ∈ branchPipes branches, p.Permits Q) →
      (watchBranches otherwise branches).Asks Q
  | [], _ => hotherwise
  | (condition, body) :: rest, h => by
    rw [branchPipes] at h
    obtain ⟨h, hrest⟩ := List.forall_mem_append.mp h
    obtain ⟨hcondition, hbody⟩ := List.forall_mem_append.mp h
    refine (condition.watch_asks hcondition).bind fun holds => ?_
    split
    · exact watchAll_asks body hbody
    · exact watchBranches_asks hotherwise rest hrest

theorem watchOption_asks : (otherwise : Option (List Node)) → (∀ p ∈ optionPipes otherwise, p.Permits Q) →
    (watchOption otherwise).Asks Q
  | none, _ => asks_pure ""
  | some body, h => watchAll_asks body h

end

end Node

/-! ## Compiled trees -/

/-- A public operand is resolved, or a filter is called with arguments that it takes. -/
def RenderEvent.IsSound : RenderEvent → Prop
  | lookup o => o.IsPublic
  | call f arguments => f.accepts arguments.length = true

theorem Pipe.WellFormed.permits {p : Pipe} (h : p.WellFormed) : p.Permits RenderEvent.IsSound where
  lookups := h.operands
  calls c hc arguments hlength := by
    rw [RenderEvent.IsSound, hlength]
    exact h.calls c hc

namespace Environment

variable {env : Environment}

theorem wellFormed_of_compile (henv : env.StandardTagsOnly) {base : List Nat} {source : String} {nodes : List Node}
    (h : env.compile base source = .ok nodes) : ∀ p ∈ Node.allPipes nodes, p.WellFormed := by
  obtain ⟨-, active, hbody⟩ := body_of_compile_eq_ok henv h
  intro p hp
  obtain ⟨active, hcompiled⟩ := Grammar.body_pipes env maxOpenTags hbody p hp
  exact hcompiled.wellFormed

/-- In the tree of a source that compiles with the standard tags and with any filters, every operand is a literal
or a path whose segments are not empty, have no dot and do not start with an underscore, and every filter takes
the arguments that its call passes, as far as its signature is known. So with whatever data the tree is rendered,
no private name is looked up by a path, and no filter is called with a number of arguments that it does not take. -/
theorem compile_wellFormed (henv : env.StandardTagsOnly) {base : List Nat} {source : String} {nodes : List Node}
    (h : env.compile base source = .ok nodes) :
    (∀ o ∈ Node.allOperands nodes, o.IsPublic) ∧
      (∀ c ∈ Node.allCalls nodes, c.filter.accepts (FilterCall.argumentCount c.argument) = true) ∧
      (Node.watchAll nodes).plain = Node.renderAll nodes ∧
      ∀ s, ∀ entry ∈ (Node.watchAll nodes).entries s, entry.event.IsSound := by
  have hpipes := wellFormed_of_compile henv h
  refine ⟨fun o ho => ?_, fun c hc => ?_, Node.plain_watchAll nodes, ?_⟩
  · obtain ⟨p, hp, ho⟩ := List.mem_flatMap.mp ho
    exact (hpipes p hp).operands o ho
  · rw [Node.allCalls_eq] at hc
    obtain ⟨p, hp, hc⟩ := List.mem_flatMap.mp hc
    exact (hpipes p hp).calls c hc
  · exact Node.watchAll_asks nodes fun p hp => (hpipes p hp).permits

/-- Source with paths, a text and a number as operands and arguments, in three kinds of tags. -/
def routedSource : String :=
  "\x7b% if a.b|default:'_x' %\x7d\x7b% filter cut:c.0 %\x7d\x7b\x7b -1 \x7d\x7d\x7b% endfilter %\x7d\x7b% endif %\x7d"

/-- All four operands of the source are public, a quoted text that starts with an underscore too. -/
theorem compile_wellFormed_routed : (standard .latest).StandardTagsOnly ∧
    ∃ nodes, (standard .latest).compile [0, 1] routedSource = .ok nodes ∧
      (Node.allOperands nodes).length = 4 ∧ (∀ o ∈ Node.allOperands nodes, o.IsPublic) ∧
      ∀ s, ∀ entry ∈ (Node.watchAll nodes).entries s, entry.event.IsSound := by
  have henv := standard_standardTagsOnly .latest
  have hcount : ((standard .latest).compile [0, 1] routedSource).toOption.map
      (fun nodes => (Node.allOperands nodes).length) = some 4 := by decide +kernel
  cases hnodes : (standard .latest).compile [0, 1] routedSource with
  | error e =>
    rw [hnodes] at hcount
    cases hcount
  | ok nodes =>
    rw [hnodes] at hcount
    obtain ⟨hoperands, -, -, hasks⟩ := compile_wellFormed henv hnodes
    exact ⟨henv, nodes, rfl, Option.some.inj hcount, hoperands, hasks⟩

end Environment

end TextTemplate
