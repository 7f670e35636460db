import TextTemplate.Node.Render
import TextTemplate.Proofs.Token.Reading

/-!
# Rendering with a journal

Nodes are rendered here with a journal of what rendering asks of the data: each operand that is resolved and
each filter that is called, with the state at that time. Nothing else in rendering reads the data by a path or
runs a function of a filter. The journal adds nothing to rendering: the texts, the failures and the states are
those of rendering without one.
-/

namespace TextTemplate

/-- What rendering asks of the data. -/
inductive RenderEvent where
  | lookup (o : Operand)
  | call (f : Filter) (arguments : List Value)

/-- An event of rendering, with the state at its time. -/
structure RenderEntry where
  state : RenderState
  event : RenderEvent

/-- Computations of rendering that keep a journal. -/
def WatchM (α : Type) := RenderState → List RenderEntry × EStateM.Result RenderError RenderState α

namespace WatchM

variable {α β : Type}

instance : Monad WatchM where
  pure a := fun s => ([], .ok a s)
  bind m f := fun s =>
    match m s with
    | (entries, .ok a s') => (entries ++ (f a s').1, (f a s').2)
    | (entries, .error e s') => (entries, .error e s')

/-- The journal of a computation. -/
def entries (m : WatchM α) (s : RenderState) : List RenderEntry := (m s).1

/-- The computation without its journal. -/
def plain (m : WatchM α) : RenderM α := fun s => (m s).2

/-- A computation that looks up no operand and calls no filter. -/
def quietly (m : RenderM α) : WatchM α := fun s => ([], m s)

/-- Resolve an operand. -/
def lookup (o : Operand) : WatchM Value := fun s => ([⟨s, .lookup o⟩], o.resolve s)

/-- Call a filter. -/
def call (f : Filter) (arguments : List Value) : WatchM Value := fun s =>
  ([⟨s, .call f arguments⟩], RenderM.onValues (f.call arguments) s)

/-- Go on with the answer, or in another way if a lookup fails. -/
def ifMissing (m : WatchM α) (f : α → WatchM β) (g : WatchM β) : WatchM β := fun s =>
  match m.plain s with
  | .ok a s' => (m.entries s ++ (f a).entries s', (f a).plain s')
  | .error (.missing _ _) s' => (m.entries s ++ g.entries s', g.plain s')
  | .error e s' => (m.entries s, .error e s')

/-- Run with one more scope, and drop it however the run ends. -/
def withScope (scope : Scope) (m : WatchM α) : WatchM α := fun s =>
  (m.entries { s with context := s.context.push scope }, RenderM.withScope scope m.plain s)

@[simp] theorem plain_pure (a : α) : (pure a : WatchM α).plain = pure a := rfl

@[simp] theorem plain_quietly (m : RenderM α) : (quietly m).plain = m := rfl

@[simp] theorem plain_lookup (o : Operand) : (lookup o).plain = o.resolve := rfl

@[simp] theorem plain_call (f : Filter) (arguments : List Value) :
    (call f arguments).plain = RenderM.onValues (f.call arguments) := rfl

@[simp] theorem plain_withScope (scope : Scope) (m : WatchM α) :
    (withScope scope m).plain = RenderM.withScope scope m.plain := rfl

theorem watch_bind (m : WatchM α) (f : α → WatchM β) (s : RenderState) :
    (m >>= f) s = match m s with
      | (entries, .ok a s') => (entries ++ (f a s').1, (f a s').2)
      | (entries, .error e s') => (entries, .error e s') := rfl

@[simp] theorem plain_bind (m : WatchM α) (f : α → WatchM β) :
    (m >>= f).plain = (do (f (← m.plain)).plain) := by
  funext s
  rw [run_bind, plain, plain, watch_bind]
  rcases m s with ⟨entries, _ | _⟩ <;> rfl

/-- The journal of a sequence is that of its first part, and that of the second one where the first one leads. -/
theorem entries_bind (m : WatchM α) (f : α → WatchM β) (s : RenderState) :
    (m >>= f).entries s = m.entries s ++ match m.plain s with
      | .ok a s' => (f a).entries s'
      | .error _ _ => [] := by
  rw [entries, entries, plain, watch_bind]
  rcases m s with ⟨entries, _ | _⟩
  · rfl
  · exact (List.append_nil _).symm

/-- What is done quietly may be done in parts. -/
theorem quietly_bind (m : RenderM α) (f : α → RenderM β) : quietly (m >>= f) = (do quietly (f (← quietly m))) := by
  funext s
  rw [watch_bind, quietly, quietly, run_bind]
  cases m s <;> rfl

theorem plain_ifMissing (m : WatchM α) (f : α → WatchM β) (g : WatchM β) (s : RenderState) :
    (ifMissing m f g).plain s = match m.plain s with
      | .ok a s' => (f a).plain s'
      | .error (.missing _ _) s' => g.plain s'
      | .error e s' => .error e s' := by
  rw [plain, ifMissing]
  split <;> rfl

theorem entries_ifMissing (m : WatchM α) (f : α → WatchM β) (g : WatchM β) (s : RenderState) :
    (ifMissing m f g).entries s = m.entries s ++ match m.plain s with
      | .ok a s' => (f a).entries s'
      | .error (.missing _ _) s' => g.entries s'
      | .error _ _ => [] := by
  rw [entries, ifMissing]
  split
  · rfl
  · rfl
  · exact (List.append_nil _).symm

end WatchM

open WatchM

/-- Run a value through one filter call, with a journal. -/
def FilterCall.watch (c : FilterCall) (v : Value) : WatchM Value := do
  match c.argument with
  | none => call c.filter [v]
  | some a => do call c.filter [v, ← lookup a]

/-- Run a value through a chain of filter calls, with a journal. -/
def FilterCall.watchAll : List FilterCall → Value → WatchM Value
  | [], v => pure v
  | c :: rest, v => do watchAll rest (← c.watch v)

namespace Expression

/-- The value of an expression whose operand cannot be resolved, with a journal. -/
def watchMissing (e : Expression) : OnMissing → WatchM Value
  | .ignore => FilterCall.watchAll e.calls .none
  | .substitute => do
    let s ← quietly get
    if s.context.ifInvalid.isEmpty then FilterCall.watchAll e.calls (.text "") else return .text s.context.ifInvalid

/-- The value of an expression, with a journal. -/
def watch (e : Expression) (onMissing : OnMissing) : WatchM Value :=
  ifMissing (lookup e.operand) (FilterCall.watchAll e.calls) (e.watchMissing onMissing)

/-- The text that an expression writes, with a journal. -/
def watchRender (e : Expression) : WatchM String := do
  let v ← e.watch .substitute
  quietly (RenderM.onValues v.write)

end Expression

/-- Whether a condition is true, with a journal. -/
def Condition.watch : Condition → WatchM Bool
  | operand e => do
    let v ← e.watch .ignore
    return v.isTrue (← quietly get).store
  | comparison left op right => do
    let a ← left.watch .ignore
    let b ← right.watch .ignore
    quietly (RenderM.onValues (op.holds a b))
  | group inside => inside.watch
  | not inside => do return !(← inside.watch)
  | and left right => do if ← left.watch then right.watch else return false
  | or left right => do if ← left.watch then return true else right.watch

namespace Loop

/-- Run the iterations of a loop from `index` on, with a journal. -/
def watchRun (item? : Nat → EvalM (Option Value)) (body : Nat → Value → WatchM String) :
    (fuel index : Nat) → WatchM String
  | 0, _ => return ""
  | fuel + 1, index => do
    match ← quietly (RenderM.onValues (item? index)) with
    | none => return ""
    | some item =>
      let text ← body index item
      return text ++ (← watchRun item? body fuel (index + 1))

/-- One iteration of a loop: `forloop` is brought up to date and the names are bound before the body runs. -/
def watchRound (names : List String) (id : Ident) (parent : Value) (length : Nat) (body : WatchM String)
    (index : Nat) (item : Value) : WatchM String := do
  quietly do
    modify fun s => { s with store := restore id s.store }
    assignAll [("forloop", .mapping id (entries parent length index))]
    bind names item
  body

/-- Go through the items of a source, with a journal. -/
def watchItems (names : List String) (source : Source) (body : WatchM String) : WatchM String := do
  let id ← quietly (RenderM.onValues EvalM.freshIdent)
  let outer ← quietly (RenderM.onValues EvalM.freshIdent)
  let parent := ((← quietly get).context.get? "forloop").getD (.mapping outer [])
  withScope [("forloop", .mapping id [(.text "parentloop", parent)])]
    (watchRun source.item? (watchRound names id parent source.length body) (source.length + 1) 0)

/-- Render a loop, with a journal. -/
def watch (names : List String) (sequence : Expression) (reversed : Bool) (body empty : WatchM String) :
    WatchM String := do
  let v ← sequence.watch .ignore
  let source ← quietly (RenderM.onValues (source v))
  if source.length == 0 then empty
  else if reversed && !isReversible v then quietly (throw .unsupportedKind)
  else watchItems names (if reversed then source.reverse else source) body

end Loop

namespace Node

/-- The values of the assignments of a `with` tag, with a journal. -/
def watchAssignments : List (String × Expression) → WatchM Scope
  | [] => return []
  | (name, e) :: rest => do
    let v ← e.watch .substitute
    return (name, v) :: (← watchAssignments rest)

/-- The first candidate that is true, written, with a journal. -/
def watchFirstTrue : List Expression → WatchM String
  | [] => return ""
  | e :: rest => do
    let v ← e.watch .ignore
    if v.isTrue (← quietly get).store then quietly (RenderM.onValues v.write) else watchFirstTrue rest

/-- Whether two operands are equal, with a journal. -/
def watchEqual (left right : Expression) : WatchM Bool := do
  let a ← left.watch .ignore
  let b ← right.watch .ignore
  quietly (RenderM.onValues (a.isEqual b))

mutual

/-- The text that a node writes, with a journal. -/
def watch : Node → WatchM String
  | text s => return s
  | output e => e.watchRender
  | choice branches otherwise => watchBranches (watchOption otherwise) branches
  | loop names sequence reversed body empty =>
    Loop.watch names sequence reversed (watchAll body) (watchAll empty)
  | binding assignments body => do
    let scope ← watchAssignments assignments
    withScope (Entries.putAll [] scope) (watchAll body)
  | equality negated left right whenTrue whenFalse => do
    if (← watchEqual left right) != negated then watchAll whenTrue else watchAll whenFalse
  | firstTrue candidates => watchFirstTrue candidates
  | spaceless body => do
    return String.ofList (closeGaps (Text.trim (← watchAll body).toList))
  | filtered calls body => do
    let v ← FilterCall.watchAll calls (.text (← watchAll body))
    quietly (RenderM.onValues v.write)
  | labelled label body => do
    return "[" ++ label ++ "]" ++ (← watchAll body) ++ "[/" ++ label ++ "]"
  | marker s => return s

/-- The texts of nodes one after the other, with a journal. -/
def watchAll : List Node → WatchM String
  | [] => return ""
  | n :: rest => do
    let s ← n.watch
    return s ++ (← watchAll rest)

/-- The first branch whose condition holds, or else the given text, with a journal. -/
def watchBranches (otherwise : WatchM String) : List (Condition × List Node) → WatchM String
  | [] => otherwise
  | (condition, body) :: rest => do
    if ← condition.watch then watchAll body else watchBranches otherwise rest

def watchOption : Option (List Node) → WatchM String
  | none => return ""
  | some body => watchAll body

end

end Node

/-! ## The journal adds nothing -/

theorem FilterCall.plain_watch (c : FilterCall) (v : Value) : (c.watch v).plain = c.apply v := by
  rw [watch, apply]
  cases c.argument with
  | none => rfl
  | some a => simp

theorem FilterCall.plain_watchAll (calls : List FilterCall) (v : Value) :
    (watchAll calls v).plain = applyAll calls v := by
  induction calls generalizing v with
  | nil => rfl
  | cons c rest ih =>
    rw [watchAll, applyAll, plain_bind, c.plain_watch]
    exact congrArg _ (funext ih)

theorem Expression.plain_watch (e : Expression) (onMissing : OnMissing) :
    (e.watch onMissing).plain = e.resolve onMissing := by
  funext s
  have hcalls (v : Value) (s' : RenderState) := congrFun (FilterCall.plain_watchAll e.calls v) s'
  rw [watch, plain_ifMissing, plain_lookup, resolve]
  cases e.operand.resolve s with
  | ok v s' => exact hcalls v s'
  | error failure s' =>
    cases failure with
    | missing path segment =>
      cases onMissing with
      | ignore => exact hcalls .none s'
      | substitute =>
        dsimp only
        rw [watchMissing, plain_bind, plain_quietly, run_bind_get]
        by_cases hempty : s'.context.ifInvalid.isEmpty = true
        · rw [if_pos hempty, if_pos hempty]
          exact hcalls (.text "") s'
        · rw [if_neg hempty, if_neg hempty]
          rfl
    | _ => rfl

theorem Expression.plain_watchRender (e : Expression) : e.watchRender.plain = e.render := by
  simp [watchRender, render, plain_watch]

theorem Condition.plain_watch (c : Condition) : c.watch.plain = c.eval := by
  induction c with
  | operand e => simp [watch, eval, e.plain_watch]
  | comparison left op right => simp [watch, eval, Expression.plain_watch]
  | group inside ih => exact ih
  | not inside ih => simp [watch, eval, ih]
  | and left right ihleft ihright | or left right ihleft ihright =>
    rw [watch, eval, plain_bind, ihleft]
    congr 1
    funext b
    cases b <;> simp [ihright]

namespace Loop

theorem plain_watchRun {item? : Nat → EvalM (Option Value)} {body : Nat → Value → WatchM String}
    (fuel index : Nat) : (watchRun item? body fuel index).plain =
      run item? (fun index item => (body index item).plain) fuel index := by
  induction fuel generalizing index with
  | zero => rfl
  | succ fuel ih =>
    rw [watchRun, run, plain_bind, plain_quietly]
    congr 1
    funext found
    cases found with
    | none => rfl
    | some item => simp [ih]

theorem plain_watch (names : List String) (sequence : Expression) (reversed : Bool) (body empty : WatchM String) :
    (watch names sequence reversed body empty).plain = render names sequence reversed body.plain empty.plain := by
  rw [watch, render, plain_bind, sequence.plain_watch]
  congr 1
  funext v
  rw [plain_bind, plain_quietly]
  congr 1
  funext source
  split
  · rfl
  split
  · rfl
  simp [watchItems, plain_watchRun, watchRound]

end Loop

namespace Node

theorem plain_watchAssignments (assignments : List (String × Expression)) :
    (watchAssignments assignments).plain = resolveAll assignments := by
  induction assignments with
  | nil => rfl
  | cons a rest ih => simp [watchAssignments, resolveAll, Expression.plain_watch, ih]

theorem plain_watchFirstTrue (candidates : List Expression) :
    (watchFirstTrue candidates).plain = writeFirstTrue candidates := by
  induction candidates with
  | nil => rfl
  | cons e rest ih =>
    rw [watchFirstTrue, writeFirstTrue, plain_bind, e.plain_watch]
    congr 1
    funext v
    rw [plain_bind, plain_quietly]
    congr 1
    funext s
    split
    · rfl
    · exact ih

theorem plain_watchEqual (left right : Expression) : (watchEqual left right).plain = operandsEqual left right := by
  simp [watchEqual, operandsEqual, Expression.plain_watch]

mutual

theorem plain_watch : (n : Node) → n.watch.plain = n.render
  | text s => rfl
  | output e => e.plain_watchRender
  | choice branches otherwise => by
    rw [watch, render, plain_watchBranches, plain_watchOption]
  | loop names sequence reversed body empty => by
    rw [watch, render, Loop.plain_watch, plain_watchAll, plain_watchAll]
  | binding assignments body => by
    simp [watch, render, plain_watchAssignments, plain_watchAll body]
  | equality negated left right whenTrue whenFalse => by
    rw [watch, render, plain_bind, plain_watchEqual]
    congr 1
    funext equal
    split
    · exact plain_watchAll whenTrue
    · exact plain_watchAll whenFalse
  | firstTrue candidates => plain_watchFirstTrue candidates
  | spaceless body => by simp [watch, render, plain_watchAll body]
  | filtered calls body => by
    simp [watch, render, plain_watchAll body, FilterCall.plain_watchAll]
  | labelled label body => by simp [watch, render, plain_watchAll body]
  | marker s => rfl

/-- Rendering with a journal is rendering. -/
theorem plain_watchAll : (nodes : List Node) → (watchAll nodes).plain = renderAll nodes
  | [] => rfl
  | n :: rest => by simp [watchAll, renderAll, plain_watch n, plain_watchAll rest]

theorem plain_watchBranches (otherwise : WatchM String) : (branches : List (Condition × List Node)) →
    (watchBranches otherwise branches).plain = renderBranches otherwise.plain branches
  | [] => rfl
  | (condition, body) :: rest => by
    rw [watchBranches, renderBranches, plain_bind, condition.plain_watch]
    congr 1
    funext holds
    split
    · exact plain_watchAll body
    · exact plain_watchBranches otherwise rest

theorem plain_watchOption : (otherwise : Option (List Node)) → (watchOption otherwise).plain = renderOption otherwise
  | none => rfl
  | some body => plain_watchAll body

end

end Node

end TextTemplate
