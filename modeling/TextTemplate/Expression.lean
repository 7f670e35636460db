import TextTemplate.Expression.Operand
import TextTemplate.Filter

/-!
# Expressions

An expression is an operand and a chain of filter calls that its value runs through. Filters are looked up
when the expression is compiled.
-/

namespace TextTemplate

/-- One step of a filter chain. -/
structure FilterCall where
  name : String
  filter : Filter
  argument : Option Operand

structure Expression where
  source : String
  operand : Operand
  calls : List FilterCall

/-- How compiling finds the filter of a name. -/
abbrev FilterLookup := String → Except CompileError Filter

namespace FilterCall

/-- How many arguments the call passes: the value and perhaps one more. -/
def argumentCount (argument : Option Operand) : Nat := if argument.isSome then 2 else 1

/-- Check that a filter takes the arguments that a call passes. -/
def check (name : String) (filter : Filter) (argument : Option Operand) : Except CompileError Unit :=
  match filter.signature? with
  | none => .ok ()
  | some s =>
    if s.accepts (argumentCount argument) then .ok ()
    else .error (.ofCause (.expression (.filterArity name s.required (argumentCount argument))))

end FilterCall

end TextTemplate
