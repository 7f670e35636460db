import TextTemplate.Condition
import TextTemplate.Condition.Token

/-!
# Reading conditions

The grammar, loosest operator first: `or` joins conditions joined by `and`; under those, `not` applies to
the whole comparison after it; a comparison is a single operand or group, or two operands around one
operator. Chains of `or` and of `and` lean to the left. Groups and `not`s may be open inside each other up
to a limit. Operands are compiled on the way, from left to right.
-/

namespace TextTemplate.Condition

/-- The most groups and `not`s that may be open at once. -/
def maxDepth : Nat := 32

/-- Computations that read condition tokens. -/
abbrev ParseM := StateT (List ConditionToken) (Except CompileError)

/-- How the operands of a condition are compiled. -/
abbrev OperandCompiler := String → Except CompileError Expression

namespace Parse

/-- The token that is next; past the end it is the end mark again. -/
def current : ParseM ConditionToken := do
  match ← get with
  | t :: _ => return t
  | [] => return ⟨.ending, "", 0⟩

/-- Go on to the next token. -/
def advance : ParseM Unit := modify List.tail

def failAt {α : Type} (position : Nat) (fault : ConditionFault) : ParseM α :=
  throw (.ofCause (.condition fault position))

/-- Fail at the token that is next. -/
def fail {α : Type} (fault : ConditionFault) : ParseM α := do failAt (← current).offset fault

/-- Take the next token if it is the given one. -/
def accept (kind : ConditionToken.Kind) (text : String) : ParseM Bool := do
  let t ← current
  if t.kind == kind && t.text == text then
    advance
    return true
  else return false

/-- Take the comparison operator that is next, if there is one. -/
def operator? : ParseM (Option Comparison) := do
  let t ← current
  if t.kind == .operator then
    advance
    return Comparison.ofSymbol? t.text
  else if ← accept .keyword "in" then return some .isIn
  else
    match ← get with
    | t :: u :: _ =>
      if t.kind == .keyword && t.text == "not" && u.kind == .keyword && u.text == "in" then
        advance
        advance
        return some .isNotIn
      else return none
    | _ => return none

/-- Take the operand that is next, or fail. -/
def operand (compile : OperandCompiler) (fault : ConditionFault) : ParseM Expression := do
  let t ← current
  if t.kind == .operand then
    advance
    compile t.text
  else fail fault

/-- Further parts after the keyword of a chain, joined to the left. -/
def chainFrom (keyword : String) (join : Condition → Condition → Condition) (part : ParseM Condition) :
    Nat → Condition → ParseM Condition
  | 0, left => return left
  | n + 1, left => do
    if ← accept .keyword keyword then
      let right ← part
      chainFrom keyword join part n (join left right)
    else return left

/-- Parts joined by a keyword. Every further part takes a token, so there are no more than tokens. -/
def chain (keyword : String) (join : Condition → Condition → Condition) (part : ParseM Condition) :
    ParseM Condition := do
  let left ← part
  chainFrom keyword join part (← get).length left

/-- Conditions joined by `and` and `or`, over a reader of the parts. -/
def disjunction (part : ParseM Condition) : ParseM Condition :=
  chain "or" .or (chain "and" .and part)

/-- A group or a single operand; `inside` reads what stands in a group. -/
def primary (compile : OperandCompiler) (inside : ParseM Condition) : ParseM Condition := do
  if ← accept .symbol "(" then
    let c ← inside
    if ← accept .symbol ")" then return .group c
    else fail .unclosedGroup
  else
    let t ← current
    match t.kind with
    | .operand => return .operand (← operand compile (.unexpectedToken t.text))
    | .ending => fail .unexpectedEnd
    | _ => fail (.unexpectedToken t.text)

/-- A primary, or a comparison of two operands. -/
def comparison (compile : OperandCompiler) (inside : ParseM Condition) : ParseM Condition := do
  let left ← primary compile inside
  match ← operator? with
  | none => return left
  | some op =>
    match left with
    | .operand e => return .comparison e op (← operand compile (.operandExpected op.symbol))
    | _ => fail (.compoundLeftSide op.symbol)

/-- A negation or a comparison, with room for `depth` more open groups and `not`s. -/
def negation (compile : OperandCompiler) : (depth : Nat) → ParseM Condition
  | 0 => do
    if ← accept .keyword "not" then fail .tooDeep
    else comparison compile (fail .tooDeep)
  | depth + 1 => do
    if ← accept .keyword "not" then return .not (← negation compile depth)
    else comparison compile (disjunction (negation compile depth))

/-- A whole condition. -/
def whole (compile : OperandCompiler) : ParseM Condition := do
  if (← current).kind == .ending then failAt 0 .empty
  else
    let c ← disjunction (negation compile maxDepth)
    let t ← current
    if t.kind == .ending then return c else fail (.unexpectedToken t.text)

end Parse

/-- Read a condition. A character that starts no token is reported at position 0, before all else. -/
def parse (compile : OperandCompiler) (text : String) : Except CompileError Condition :=
  match ConditionToken.ofString text with
  | .error (c, offset) => .error (.ofCause (.condition (.strayCharacter c offset) 0))
  | .ok tokens => (Parse.whole compile).run' tokens

end TextTemplate.Condition
