import TextTemplate.Value.Sequence

/-!
# Filters

A filter turns a value, and perhaps an argument, into another value. Its signature says how many positional
arguments it takes; a filter of the host may keep its signature to itself, and is then never checked before
it is called.
-/

namespace TextTemplate

structure Signature where
  /-- Positional arguments that must be given. -/
  required : Nat
  /-- Positional arguments that may be left out. -/
  optional : Nat
  /-- Whether any number of further arguments is taken. -/
  openEnded : Bool
  /-- Whether an argument must be given by name, which a template cannot do. -/
  needsNamed : Bool
  deriving DecidableEq, Repr

namespace Signature

/-- Exactly `n` positional arguments. -/
def exactly (n : Nat) : Signature := ⟨n, 0, false, false⟩

/-- Whether a call with `n` positional arguments fits. -/
def accepts (s : Signature) (n : Nat) : Bool :=
  !s.needsNamed && s.required ≤ n && (s.openEnded || n ≤ s.required + s.optional)

end Signature

structure Filter where
  signature? : Option Signature
  run : List Value → EvalM Value

namespace Filter

/-- Whether the filter may be called with `n` arguments, as far as its signature is known. -/
def accepts (f : Filter) (n : Nat) : Bool :=
  match f.signature? with
  | some s => s.accepts n
  | none => true

/-- Call the filter with positional arguments. -/
def call (f : Filter) (arguments : List Value) : EvalM Value :=
  if f.accepts arguments.length then f.run arguments else throw .wrongArgumentCount

end Filter

end TextTemplate
