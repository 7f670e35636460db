import TextTemplate.Expression

/-!
# Conditions

The boolean expressions of the `if` tag: operands, comparisons of two operands, groups, `not`, `and` and
`or`. The text of a condition is written back from the tree with one blank around each operator.
-/

namespace TextTemplate

/-- How two operands are compared. -/
inductive Comparison where
  | equal
  | unequal
  | less
  | greater
  | atMost
  | atLeast
  | isIn
  | isNotIn
  deriving DecidableEq, Repr

namespace Comparison

def symbol : Comparison → String
  | equal => "=="
  | unequal => "!="
  | less => "<"
  | greater => ">"
  | atMost => "<="
  | atLeast => ">="
  | isIn => "in"
  | isNotIn => "not in"

/-- The comparison written with an operator of one or two characters. -/
def ofSymbol? (s : String) : Option Comparison :=
  [equal, unequal, less, greater, atMost, atLeast].find? fun c => c.symbol == s

end Comparison

inductive Condition where
  | operand (e : Expression)
  | comparison (left : Expression) (operator : Comparison) (right : Expression)
  | group (inside : Condition)
  | not (inside : Condition)
  | and (left right : Condition)
  | or (left right : Condition)

namespace Condition

/-- The text of a condition. -/
def shown : Condition → String
  | operand e => e.source
  | comparison left operator right => left.source ++ " " ++ operator.symbol ++ " " ++ right.source
  | group inside => "(" ++ inside.shown ++ ")"
  | not inside => "not " ++ inside.shown
  | and left right => left.shown ++ " and " ++ right.shown
  | or left right => left.shown ++ " or " ++ right.shown

end Condition

end TextTemplate
