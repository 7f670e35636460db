import TextTemplate.Condition
import TextTemplate.Expression.Resolve

/-!
# Truth of conditions

Operands are resolved from left to right, and no further than the truth of the whole needs. An operand that
cannot be resolved counts as `none`. A comparison of values that cannot be compared is false.
-/

namespace TextTemplate

namespace Comparison

/-- Whether two values compare so; fails if they cannot be compared. -/
def test (op : Comparison) (a b : Value) : EvalM Bool :=
  match op with
  | equal => a.isEqual b
  | unequal => do return !(← a.isEqual b)
  | less => a.isRelated .less b
  | greater => a.isRelated .greater b
  | atMost => a.isRelated .atMost b
  | atLeast => a.isRelated .atLeast b
  | isIn => a.isIn b
  | isNotIn => do return !(← a.isIn b)

/-- Whether two values compare so; values that cannot be compared do not. -/
def holds (op : Comparison) (a b : Value) : EvalM Bool := fun st =>
  match op.test a b st with
  | .error .unsupportedKind st' => .ok false st'
  | result => result

end Comparison

namespace Condition

/-- Whether a condition is true. -/
def eval : Condition → RenderM Bool
  | operand e => do
    let v ← e.resolve .ignore
    return v.isTrue (← get).store
  | comparison left op right => do
    let a ← left.resolve .ignore
    let b ← right.resolve .ignore
    RenderM.onValues (op.holds a b)
  | group inside => inside.eval
  | not inside => do return !(← inside.eval)
  | and left right => do if ← left.eval then right.eval else return false
  | or left right => do if ← left.eval then return true else right.eval

end Condition

end TextTemplate
