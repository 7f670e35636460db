import TextTemplate.Proofs.Node.Calls
import TextTemplate.Proofs.Tag.Script

/-!
# What tags load and which filters they place

A script may load libraries, or it may not; and the filter calls in its node come from somewhere. Of the
standard tags, `load` alone loads anything, and they all place only calls that stand in the bodies they were
given or that are compiled with the filters they were given. The tags that keep their inside from the compiler
read tokens and do nothing else.
-/

namespace TextTemplate

namespace Request

def isLoad {α : Type} : Request α → Bool
  | load _ => true
  | _ => false

/-- The filter calls that come with an answer, or can be made with it, have the property. -/
def Gives (P : FilterCall → Prop) {α : Type} : Request α → α → Prop
  | parse _, nodes => ∀ c ∈ Node.allCalls nodes, P c
  | callTag _ _, node => ∀ c ∈ Node.allCalls node.toList, P c
  | filters, lookup => lookup.Gives P
  | _, _ => True

/-- A request that only reads tokens. -/
def isQuiet {α : Type} : Request α → Bool
  | parse _ | load _ | filters | callTag _ _ => false
  | _ => true

end Request

namespace TagScript

/-- The script loads libraries only if it may. As long as all filter calls that it is given have the property,
those that it places have it. -/
def KeepsTo (mayLoad : Bool) (P : FilterCall → Prop) : TagScript → Prop
  | done node => ∀ c ∈ Node.allCalls node.toList, P c
  | raise _ => True
  | ask r continuation =>
    (r.isLoad = true → mayLoad = true) ∧ ∀ a, r.Gives P a → (continuation a).KeepsTo mayLoad P
  | attempt r continuation =>
    (r.isLoad = true → mayLoad = true) ∧ (∀ a, r.Gives P a → (continuation (.ok a)).KeepsTo mayLoad P) ∧
      ∀ e, (continuation (.error e)).KeepsTo mayLoad P

/-- The script only reads tokens. -/
def IsQuiet : TagScript → Prop
  | done _ | raise _ => True
  | ask r continuation => r.isQuiet = true ∧ ∀ a, (continuation a).IsQuiet
  | attempt r continuation => r.isQuiet = true ∧ ∀ result, (continuation result).IsQuiet

variable {α : Type} {mayLoad : Bool} {P : FilterCall → Prop}

/-- What keeps from loading may also be allowed to load. -/
theorem KeepsTo.mono {script : TagScript} (h : script.KeepsTo false P) : script.KeepsTo mayLoad P := by
  induction script with
  | done node => exact h
  | raise e => trivial
  | ask r continuation ih => exact ⟨fun hload => absurd (h.1 hload) nofun, fun a ha => ih a (h.2 a ha)⟩
  | attempt r continuation ih =>
    exact ⟨fun hload => absurd (h.1 hload) nofun, fun a ha => ih _ (h.2.1 a ha), fun e => ih _ (h.2.2 e)⟩

/-- A script that begins with a request other than a load keeps to this as it goes on. -/
theorem keepsTo_ask {r : Request α} {continuation : α → TagScript} (hload : r.isLoad = false)
    (h : ∀ a, r.Gives P a → (continuation a).KeepsTo mayLoad P) : (ask r continuation).KeepsTo mayLoad P :=
  ⟨fun hask => absurd (hload.symm.trans hask) Bool.false_ne_true, h⟩

theorem reading_keepsTo {read : FilterLookup → Except CompileError α} {continuation : α → TagScript}
    (h : ∀ lookup a, lookup.Gives P → read lookup = .ok a → (continuation a).KeepsTo mayLoad P) :
    (reading read continuation).KeepsTo mayLoad P := by
  refine keepsTo_ask rfl fun lookup hlookup => ?_
  cases hread : read lookup with
  | ok a => exact h lookup a hlookup hread
  | error e => trivial

theorem bodyUpTo_keepsTo {endTag : String} {continuation : List Node → TagScript}
    (h : ∀ body, (∀ c ∈ Node.allCalls body, P c) → (continuation body).KeepsTo mayLoad P) :
    (bodyUpTo endTag continuation).KeepsTo mayLoad P :=
  keepsTo_ask rfl fun body hbody => keepsTo_ask rfl fun _ _ => h body hbody

theorem secondBody_keepsTo {separator endTag : String} {continuation : List Node → TagScript}
    (h : ∀ body, (∀ c ∈ Node.allCalls body, P c) → (continuation body).KeepsTo mayLoad P) :
    (secondBody separator endTag continuation).KeepsTo mayLoad P := by
  refine keepsTo_ask rfl fun t _ => ?_
  split
  · exact bodyUpTo_keepsTo h
  · exact h [] (List.forall_mem_nil _)

theorem loadAll_keepsTo (names : List String) : (loadAll names).KeepsTo true P := by
  induction names with
  | nil => exact List.forall_mem_nil _
  | cons name rest ih => exact ⟨fun _ => rfl, fun _ _ => ih⟩

theorem verbatimWithin_keepsTo {continuation : List String → TagScript}
    (h : ∀ found, (continuation found).KeepsTo mayLoad P) (n : Nat) :
    (verbatimWithin n continuation).KeepsTo mayLoad P := by
  induction n generalizing continuation with
  | zero => trivial
  | succ n ih =>
    refine keepsTo_ask rfl fun more _ => ?_
    split
    · refine keepsTo_ask rfl fun t _ => ?_
      split
      · exact h []
      · exact ih fun found => h (t.raw :: found)
    · exact keepsTo_ask rfl fun _ _ => trivial

theorem verbatimWithin_isQuiet {continuation : List String → TagScript}
    (h : ∀ found, (continuation found).IsQuiet) (n : Nat) : (verbatimWithin n continuation).IsQuiet := by
  induction n generalizing continuation with
  | zero => trivial
  | succ n ih =>
    refine ⟨rfl, fun more => ?_⟩
    dsimp only
    split
    · refine ⟨rfl, fun t => ?_⟩
      dsimp only
      split
      · exact h []
      · exact ih fun found => h (t.raw :: found)
    · exact ⟨rfl, fun _ => trivial⟩

theorem elifBranches_keepsTo {continuation : List (Condition × List Node) × Token → TagScript}
    (h : ∀ found, (∀ c ∈ Node.branchCalls found.1, P c) → (continuation found).KeepsTo mayLoad P) (n : Nat)
    (t : Token) : (elifBranches n t continuation).KeepsTo mayLoad P := by
  induction n generalizing t continuation with
  | zero => trivial
  | succ n ih =>
    rw [elifBranches]
    split
    · refine keepsTo_ask rfl fun lookup hlookup => ?_
      split
      · trivial
      · rename_i condition hcondition
        refine keepsTo_ask rfl fun body hbody => keepsTo_ask rfl fun t' _ => ih (fun found hfound => h _ ?_) t'
        rw [Node.branchCalls]
        exact List.forall_mem_append.mpr
          ⟨List.forall_mem_append.mpr ⟨HeaderReader.condition_gives hlookup hcondition, hbody⟩, hfound⟩
    · exact h ([], t) (List.forall_mem_nil _)

theorem elseBranch_keepsTo {t : Token} {continuation : Option (List Node) → TagScript}
    (h : ∀ otherwise, (∀ c ∈ Node.optionCalls otherwise, P c) → (continuation otherwise).KeepsTo mayLoad P) :
    (elseBranch t continuation).KeepsTo mayLoad P := by
  rw [elseBranch]
  split
  · split
    · exact bodyUpTo_keepsTo fun body hbody => h (some body) hbody
    · trivial
  · exact h none (List.forall_mem_nil _)

end TagScript

namespace Directive

open TagScript

variable {P : FilterCall → Prop}

/-- The calls of a single node. -/
theorem done_keepsTo {mayLoad : Bool} {node : Node} (h : ∀ c ∈ node.calls, P c) :
    (done (some node)).KeepsTo mayLoad P := by
  rw [KeepsTo, Option.toList_some, Node.allCalls, Node.allCalls, List.append_nil]
  exact h

theorem comparing_keepsTo (tag : String) (negated : Bool) (content : String) :
    (script.comparing tag negated content).KeepsTo false P := by
  refine reading_keepsTo fun lookup found hlookup hread => keepsTo_ask rfl fun whenTrue htrue => ?_
  refine secondBody_keepsTo fun whenFalse hfalse => done_keepsTo ?_
  rw [Node.calls]
  exact List.forall_mem_append.mpr
    ⟨List.forall_mem_append.mpr ⟨HeaderReader.operands_gives hlookup hread, htrue⟩, hfalse⟩

/-- The standard tags but `load` load nothing, and place only calls that they are given. -/
theorem script_keepsTo (d : Directive) (hload : d ≠ load) (content : String) :
    (d.script content).KeepsTo false P := by
  cases d with
  | load => exact absurd rfl hload
  | comment => exact keepsTo_ask rfl fun _ _ => List.forall_mem_nil _
  | verbatim =>
    exact keepsTo_ask rfl fun n _ => verbatimWithin_keepsTo (fun found => done_keepsTo (List.forall_mem_nil _)) n
  | conditional =>
    refine reading_keepsTo fun lookup c hlookup hread => keepsTo_ask rfl fun body hbody => ?_
    refine keepsTo_ask rfl fun n _ => keepsTo_ask rfl fun t _ => elifBranches_keepsTo (fun found hfound => ?_) n t
    refine elseBranch_keepsTo fun otherwise hotherwise => done_keepsTo ?_
    rw [Node.calls, Node.branchCalls]
    refine List.forall_mem_append.mpr ⟨List.forall_mem_append.mpr ⟨?_, hfound⟩, hotherwise⟩
    exact List.forall_mem_append.mpr ⟨HeaderReader.condition_gives hlookup hread, hbody⟩
  | loop =>
    refine reading_keepsTo fun lookup found hlookup hread => keepsTo_ask rfl fun body hbody => ?_
    refine secondBody_keepsTo fun empty hempty => done_keepsTo ?_
    rw [Node.calls]
    exact List.forall_mem_append.mpr
      ⟨List.forall_mem_append.mpr ⟨HeaderReader.loop_gives hlookup hread, hbody⟩, hempty⟩
  | binding =>
    refine reading_keepsTo fun lookup found hlookup hread => bodyUpTo_keepsTo fun body hbody => done_keepsTo ?_
    rw [Node.calls]
    exact List.forall_mem_append.mpr ⟨HeaderReader.bindings_gives hlookup hread, hbody⟩
  | equality => exact comparing_keepsTo "ifequal" false content
  | inequality => exact comparing_keepsTo "ifnotequal" true content
  | firstOf =>
    refine reading_keepsTo fun lookup found hlookup hread => done_keepsTo ?_
    rw [Node.calls]
    exact HeaderReader.candidates_gives hlookup hread
  | symbol =>
    rw [script]
    cases HeaderReader.symbol content with
    | ok s => exact done_keepsTo (List.forall_mem_nil _)
    | error e => trivial
  | spaceless => exact bodyUpTo_keepsTo fun body hbody => done_keepsTo hbody
  | filtered =>
    refine reading_keepsTo fun lookup calls hlookup hread => bodyUpTo_keepsTo fun body hbody => done_keepsTo ?_
    rw [Node.calls]
    exact List.forall_mem_append.mpr ⟨Pipeline.compileChain_gives hlookup hread, hbody⟩

/-- All standard tags place only calls that they are given. -/
theorem script_places (d : Directive) (content : String) : (d.script content).KeepsTo true P := by
  by_cases hload : d = load
  · subst hload
    rw [script]
    split
    · trivial
    · exact loadAll_keepsTo _
  · exact (d.script_keepsTo hload content).mono

/-- The tags that keep their inside from the compiler. -/
def isOpaque (d : Directive) : Bool := d == comment || d == verbatim

/-- What stands inside such a tag is read and nothing else. -/
theorem script_isQuiet (d : Directive) (hd : d.isOpaque = true) (content : String) :
    (d.script content).IsQuiet := by
  cases d with
  | comment => exact ⟨rfl, fun _ => trivial⟩
  | verbatim =>
    refine ⟨rfl, fun n => verbatimWithin_isQuiet ?_ n⟩
    exact fun _ => trivial
  | _ => cases hd

end Directive

end TextTemplate
