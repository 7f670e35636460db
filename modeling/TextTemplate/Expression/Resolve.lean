import TextTemplate.Context
import TextTemplate.Expression
import TextTemplate.Value.Method

/-!
# Resolving expressions

A path is looked up segment by segment: the first in the scopes, every further one as a key of the value so
far, then as something the value offers by that name, then as a position. A host function found on the way is
called. An operand that cannot be resolved becomes `none` or the text that the context gives for it; a text
that is not empty is then the value of the whole expression, past all filters.
-/

namespace TextTemplate

namespace Operand

/-- One step along a path; `missing` is the failure if the value has nothing under the segment. -/
def step (missing : RenderError) (current : Value) (segment : String) : EvalM Value := do
  let st ← get
  let keyed := match current with
    | .mapping id entries => Value.keyedByText? segment (st.pick id entries)
    | _ => none
  match keyed with
  | some v => v.called missing
  | none =>
    match current.method? segment with
    | some operation => operation
    | none =>
      match current.attribute? segment with
      | some v => v.called missing
      | none =>
        match (Integer.ofString? segment).bind (current.itemAt? st) with
        | some v => v.called missing
        | none => throw missing

/-- Follow the segments of a path from a value. -/
def follow (source : String) : Value → List String → EvalM Value
  | current, [] => pure current
  | current, segment :: rest => do
    let next ← step (.missing source segment) current segment
    follow source next rest

/-- The value of an operand. -/
def resolve (o : Operand) : RenderM Value := do
  match o.meaning with
  | .literal v => pure v
  | .path first rest =>
    match (← get).context.get? first with
    | none => throw (.missing o.source first)
    | some v =>
      RenderM.onValues do
        let start ← v.called (.missing o.source first)
        follow o.source start rest

end Operand

namespace FilterCall

/-- Run a value through one filter call. -/
def apply (c : FilterCall) (v : Value) : RenderM Value := do
  match c.argument with
  | none => RenderM.onValues (c.filter.call [v])
  | some a =>
    let argument ← a.resolve
    RenderM.onValues (c.filter.call [v, argument])

/-- Run a value through a chain of filter calls. -/
def applyAll : List FilterCall → Value → RenderM Value
  | [], v => pure v
  | c :: rest, v => do applyAll rest (← c.apply v)

end FilterCall

namespace Expression

/-- What to do with an operand that cannot be resolved. -/
inductive OnMissing where
  /-- Take the text that the context gives for it. -/
  | substitute
  /-- Take `none`. -/
  | ignore
  deriving DecidableEq, Repr

/-- The value of an expression. -/
def resolve (e : Expression) (onMissing : OnMissing) : RenderM Value := fun s =>
  match e.operand.resolve s with
  | .ok v s' => FilterCall.applyAll e.calls v s'
  | .error (.missing _ _) s' =>
    match onMissing with
    | .ignore => FilterCall.applyAll e.calls .none s'
    | .substitute =>
      if s'.context.ifInvalid.isEmpty then FilterCall.applyAll e.calls (.text "") s'
      else .ok (.text s'.context.ifInvalid) s'
  | .error other s' => .error other s'

/-- The text that the expression writes into the output. -/
def render (e : Expression) : RenderM String := do
  let v ← e.resolve .substitute
  RenderM.onValues v.write

end Expression

end TextTemplate
