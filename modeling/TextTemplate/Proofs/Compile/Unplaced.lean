import TextTemplate.Proofs.Compile.Directive
import TextTemplate.Proofs.Expression.Grammar

/-!
# Failures over the content of a tag

Numbers, paths, filters, conditions, headers and names of libraries are read without a token at hand. What
fails there fails without a line, with a cause that the author of the template can mend; whoever has the token
puts the line in.
-/

namespace TextTemplate

/-- Failures over what the content of a variable or block tag says. -/
def CompileCause.isOverContent : CompileCause → Bool
  | unknownFilter _ | unknownLibrary .. | condition .. | expression _ | header _ => true
  | _ => false

/-- A failure over the content of a tag whose line is not known yet. -/
structure CompileError.Unplaced (e : CompileError) : Prop where
  line_eq : e.line = none
  overContent : e.cause.isOverContent = true

theorem CompileError.unplaced_ofCause {cause : CompileCause} (h : cause.isOverContent = true) :
    (CompileError.ofCause cause).Unplaced := ⟨rfl, h⟩

theorem CompileCause.isUserError_of_isOverContent {cause : CompileCause} (h : cause.isOverContent = true) :
    cause.isUserError = true := by
  cases cause <;> first | rfl | cases h

/-- A result that fails, if it does, without a line and over the content of a tag. -/
def FailsUnplaced {α : Type} (r : Except CompileError α) : Prop := ∀ e, r = .error e → e.Unplaced

namespace FailsUnplaced

variable {α β : Type} {cause : CompileCause} {lookup : FilterLookup}

theorem ok (a : α) : FailsUnplaced (.ok a : Except CompileError α) := nofun

theorem ofCause (h : cause.isOverContent = true) :
    FailsUnplaced (.error (.ofCause cause) : Except CompileError α) :=
  FailsWith.error (CompileError.unplaced_ofCause h)

theorem bind {r : Except CompileError α} {f : α → Except CompileError β} (hr : FailsUnplaced r)
    (hf : ∀ a, FailsUnplaced (f a)) : FailsUnplaced (r >>= f) := FailsWith.bind hr hf

end FailsUnplaced

/-! ## Expressions -/

theorem Environment.filterLookup_failsUnplaced (env : Environment) (active : List Nat) (name : String) :
    FailsUnplaced (env.filterLookup active name) := by
  rw [filterLookup]
  split
  · exact .ok _
  · exact .ofCause rfl

namespace Pipeline

variable {lookup : FilterLookup} (hlookup : ∀ name, FailsUnplaced (lookup name))
include hlookup

theorem compile_failsUnplaced (source : String) : FailsUnplaced (compile lookup source) :=
  compile_failsWith (fun _ => CompileError.unplaced_ofCause rfl) hlookup source

theorem compileChain_failsUnplaced (source : String) : FailsUnplaced (compileChain lookup source) :=
  compileChain_failsWith (fun _ => CompileError.unplaced_ofCause rfl) hlookup source

end Pipeline

/-! ## Conditions -/

namespace Condition

namespace Parse

variable {α β : Type} {compile : OperandCompiler}

/-- A reader that fails, if it does, without a line and over the content of a tag. -/
def ReadsUnplaced (m : ParseM α) : Prop := ∀ s, FailsUnplaced (m.run s)

theorem ReadsUnplaced.bind {m : ParseM α} {f : α → ParseM β} (hm : ReadsUnplaced m)
    (hf : ∀ a, ReadsUnplaced (f a)) : ReadsUnplaced (m >>= f) := by
  intro s
  rw [StateT.run_bind]
  exact .bind (hm s) fun found => hf found.1 found.2

theorem readsUnplaced_pure (a : α) : ReadsUnplaced (pure a : ParseM α) := fun _ => .ok _

theorem readsUnplaced_get : ReadsUnplaced (get : ParseM (List ConditionToken)) := fun _ => .ok _

theorem readsUnplaced_advance : ReadsUnplaced advance := fun _ => .ok _

theorem readsUnplaced_current : ReadsUnplaced current := fun s => by cases s <;> exact .ok _

theorem readsUnplaced_failAt (position : Nat) (fault : ConditionFault) :
    ReadsUnplaced (failAt position fault : ParseM α) := fun _ => .ofCause rfl

theorem readsUnplaced_fail (fault : ConditionFault) : ReadsUnplaced (fail fault : ParseM α) :=
  readsUnplaced_current.bind fun _ => readsUnplaced_failAt _ _

theorem readsUnplaced_accept (kind : ConditionToken.Kind) (text : String) : ReadsUnplaced (accept kind text) := by
  refine readsUnplaced_current.bind fun t => ?_
  split
  · exact readsUnplaced_advance.bind fun _ => readsUnplaced_pure _
  · exact readsUnplaced_pure _

theorem readsUnplaced_operator? : ReadsUnplaced operator? := by
  refine readsUnplaced_current.bind fun t => ?_
  split
  · exact readsUnplaced_advance.bind fun _ => readsUnplaced_pure _
  refine (readsUnplaced_accept _ _).bind fun taken => ?_
  split
  · exact readsUnplaced_pure _
  refine readsUnplaced_get.bind fun s => ?_
  split
  · split
    · exact readsUnplaced_advance.bind fun _ => readsUnplaced_advance.bind fun _ => readsUnplaced_pure _
    · exact readsUnplaced_pure _
  · exact readsUnplaced_pure _

section Chain

variable {keyword : String} {join : Condition → Condition → Condition} {part : ParseM Condition}
  (hpart : ReadsUnplaced part)
include hpart

theorem readsUnplaced_chainFrom (n : Nat) (left : Condition) :
    ReadsUnplaced (chainFrom keyword join part n left) := by
  induction n generalizing left with
  | zero => exact readsUnplaced_pure _
  | succ n ih =>
    refine (readsUnplaced_accept _ _).bind fun taken => ?_
    split
    · exact hpart.bind fun right => ih _
    · exact readsUnplaced_pure _

theorem readsUnplaced_chain : ReadsUnplaced (chain keyword join part) :=
  hpart.bind fun _ => readsUnplaced_get.bind fun _ => readsUnplaced_chainFrom hpart _ _

theorem readsUnplaced_disjunction : ReadsUnplaced (disjunction part) :=
  readsUnplaced_chain (readsUnplaced_chain hpart)

end Chain

variable (hcompile : ∀ text, FailsUnplaced (compile text))
include hcompile

theorem readsUnplaced_operand (fault : ConditionFault) : ReadsUnplaced (operand compile fault) := by
  refine readsUnplaced_current.bind fun t => ?_
  split
  · refine readsUnplaced_advance.bind fun _ s => ?_
    exact .bind (hcompile t.text) fun e => .ok (e, s)
  · exact readsUnplaced_fail _

theorem readsUnplaced_primary {inside : ParseM Condition} (hinside : ReadsUnplaced inside) :
    ReadsUnplaced (primary compile inside) := by
  refine (readsUnplaced_accept _ _).bind fun opened => ?_
  split
  · refine hinside.bind fun c => (readsUnplaced_accept _ _).bind fun closed => ?_
    split
    · exact readsUnplaced_pure _
    · exact readsUnplaced_fail _
  · refine readsUnplaced_current.bind fun t => ?_
    split
    · exact (readsUnplaced_operand hcompile _).bind fun e => readsUnplaced_pure _
    · exact readsUnplaced_fail _
    · exact readsUnplaced_fail _

theorem readsUnplaced_comparison {inside : ParseM Condition} (hinside : ReadsUnplaced inside) :
    ReadsUnplaced (comparison compile inside) := by
  refine (readsUnplaced_primary hcompile hinside).bind fun left => readsUnplaced_operator?.bind fun found => ?_
  split
  · exact readsUnplaced_pure _
  · split
    · exact (readsUnplaced_operand hcompile _).bind fun e => readsUnplaced_pure _
    · exact readsUnplaced_fail _

theorem readsUnplaced_negation (depth : Nat) : ReadsUnplaced (negation compile depth) := by
  induction depth with
  | zero =>
    refine (readsUnplaced_accept _ _).bind fun negated => ?_
    split
    · exact readsUnplaced_fail _
    · exact readsUnplaced_comparison hcompile (readsUnplaced_fail _)
  | succ depth ih =>
    refine (readsUnplaced_accept _ _).bind fun negated => ?_
    split
    · exact ih.bind fun c => readsUnplaced_pure _
    · exact readsUnplaced_comparison hcompile (readsUnplaced_disjunction ih)

theorem readsUnplaced_whole : ReadsUnplaced (whole compile) := by
  refine readsUnplaced_current.bind fun t => ?_
  split
  · exact readsUnplaced_failAt _ _
  · refine (readsUnplaced_disjunction (readsUnplaced_negation hcompile _)).bind fun c =>
      readsUnplaced_current.bind fun last => ?_
    split
    · exact readsUnplaced_pure _
    · exact readsUnplaced_fail _

end Parse

theorem parse_failsUnplaced {compile : OperandCompiler} (hcompile : ∀ text, FailsUnplaced (compile text))
    (text : String) : FailsUnplaced (parse compile text) := by
  rw [parse]
  split
  · exact .ofCause rfl
  · exact .bind (Parse.readsUnplaced_whole hcompile _) fun found => .ok found.1

end Condition

/-! ## Headers -/

namespace HeaderReader

variable {lookup : FilterLookup} (hlookup : ∀ name, FailsUnplaced (lookup name))

theorem symbol_failsUnplaced (content : String) : FailsUnplaced (symbol content) := by
  rw [symbol]
  split
  · exact .ok _
  · exact .ofCause rfl

include hlookup

theorem condition_failsUnplaced (tag text : String) : FailsUnplaced (condition lookup tag text) := by
  rw [condition]
  split
  · exact .ofCause rfl
  · exact Condition.parse_failsUnplaced (Pipeline.compile_failsUnplaced hlookup) text

theorem expressions_failsUnplaced (sources : List String) : FailsUnplaced (expressions lookup sources) := by
  induction sources with
  | nil => exact .ok _
  | cons source rest ih =>
    exact .bind (Pipeline.compile_failsUnplaced hlookup source) fun e => .bind ih fun es => .ok (e :: es)

theorem assignments_failsUnplaced (bits : List String) : FailsUnplaced (assignments lookup bits) := by
  induction bits with
  | nil => exact .ok _
  | cons bit rest ih =>
    rw [assignments]
    split
    · exact .ofCause rfl
    · exact .bind (Pipeline.compile_failsUnplaced hlookup _) fun e => .bind ih fun found => .ok _

theorem loop_failsUnplaced (content : String) : FailsUnplaced (loop lookup content) := by
  rw [loop]
  split
  · exact .ofCause rfl
  · exact .bind (Pipeline.compile_failsUnplaced hlookup _) fun e => .ok _

theorem candidates_failsUnplaced (content : String) : FailsUnplaced (candidates lookup content) := by
  rw [candidates]
  split
  · exact .ofCause rfl
  · exact expressions_failsUnplaced hlookup _

theorem operands_failsUnplaced (tag content : String) : FailsUnplaced (operands lookup tag content) := by
  rw [operands]
  split
  · exact .bind (Pipeline.compile_failsUnplaced hlookup _) fun left =>
      .bind (Pipeline.compile_failsUnplaced hlookup _) fun right => .ok (left, right)
  · exact .ofCause rfl

theorem bindings_failsUnplaced (content : String) : FailsUnplaced (bindings lookup content) := by
  by_cases h : ∃ source name, Bits.ofString content = [source, "as", name]
  · obtain ⟨source, name, h⟩ := h
    rw [bindings_alias h]
    exact .bind (Pipeline.compile_failsUnplaced hlookup _) fun e => .ok _
  · rw [bindings_assignments fun source name hbits => h ⟨source, name, hbits⟩]
    refine .bind (assignments_failsUnplaced hlookup _) fun found => ?_
    split
    · exact .ofCause rfl
    · exact .ok _

end HeaderReader

end TextTemplate
