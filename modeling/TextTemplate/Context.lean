import TextTemplate.Entries
import TextTemplate.Value.Sequence

/-!
# Scopes

The names that a template can look up, as a stack of scopes. Look-ups search the innermost scope first,
assignments go to the innermost scope, and the outermost scope is always there.
-/

namespace TextTemplate

/-- Names with their values, in the order in which they were first assigned. -/
abbrev Scope := List (String × Value)

structure Context where
  /-- The scopes opened over the outermost one, innermost first. -/
  inner : List Scope
  outermost : Scope
  /-- What a variable that cannot be resolved is written as. -/
  ifInvalid : String

namespace Context

def ofScope (data : Scope) (ifInvalid : String) : Context := ⟨[], data, ifInvalid⟩

/-- All scopes, innermost first. -/
def scopes (c : Context) : List Scope := c.inner ++ [c.outermost]

/-- The value of a name in the innermost scope that has it. -/
def get? (c : Context) (name : String) : Option Value := c.scopes.findSome? (·.lookup name)

def contains (c : Context) (name : String) : Bool := c.scopes.any fun s => (s.lookup name).isSome

/-- Assign a name in the innermost scope. -/
def assign (c : Context) (name : String) (v : Value) : Context :=
  match c.inner with
  | [] => { c with outermost := Entries.put name v c.outermost }
  | s :: rest => { c with inner := Entries.put name v s :: rest }

def push (c : Context) (scope : Scope) : Context := { c with inner := scope :: c.inner }

/-- Drop the innermost scope; the outermost one stays. -/
def pop (c : Context) : Context := { c with inner := c.inner.tail }

/-- How many scopes there are. -/
def depth (c : Context) : Nat := c.scopes.length

/-- All names with the values they have now. -/
def flatten (c : Context) : Scope := c.scopes.reverse.foldl Entries.putAll []

/-- The context as diagnostics show it. -/
def shown (c : Context) (st : Store) : String :=
  "Context(" ++
    (Value.mapping 0 (c.flatten.map fun e => (.text e.1, e.2.settle st))).shown ++ ")"

end Context

/-- What rendering reads and changes. -/
structure RenderState where
  context : Context
  store : Store

abbrev RenderM := EStateM RenderError RenderState

namespace RenderM

/-- Run a computation on values. -/
def onValues {α : Type} (m : EvalM α) : RenderM α := fun s =>
  match m s.store with
  | .ok a st => .ok a { s with store := st }
  | .error e st => .error e { s with store := st }

/-- Run with one more scope, and drop it however the run ends. -/
def withScope {α : Type} (scope : Scope) (m : RenderM α) : RenderM α := fun s =>
  match m { s with context := s.context.push scope } with
  | .ok a s' => .ok a { s' with context := s'.context.pop }
  | .error e s' => .error e { s' with context := s'.context.pop }

end RenderM

end TextTemplate
