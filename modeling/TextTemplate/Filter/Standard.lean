import TextTemplate.Filter
import TextTemplate.Text.Case
import TextTemplate.Value.Method

/-!
# The standard filters

Filters on texts, defaults, sequences, sums and choices. They degrade rather than fail: a length that is no
integer leaves the value alone, operands that cannot be added give the empty text, and a value without items
has no first one.
-/

namespace TextTemplate.StandardFilter

/-- A filter of the value alone. -/
def ofValue (f : Value → EvalM Value) : Filter where
  signature? := some (.exactly 1)
  run
    | [v] => f v
    | _ => throw .wrongArgumentCount

/-- A filter of the value and one argument. -/
def ofPair (f : Value → Value → EvalM Value) : Filter where
  signature? := some (.exactly 2)
  run
    | [v, a] => f v a
    | _ => throw .wrongArgumentCount

/-- A filter of the value and an argument that may be left out. -/
def ofOptional (f : Value → Option Value → EvalM Value) : Filter where
  signature? := some ⟨1, 1, false, false⟩
  run
    | [v] => f v none
    | [v, a] => f v (some a)
    | _ => throw .wrongArgumentCount

/-- A filter that maps the characters of the value's text. -/
def ofText (f : List Char → List Char) : Filter :=
  ofValue fun v => do return .text (String.ofList (f (← v.write).toList))

/-- A value as an integer, rounding toward zero; `none` if it is not one, a failure if it is infinite. -/
def toInteger? : Value → EvalM (Option Int)
  | .bool b => pure (some (if b then 1 else 0))
  | .int n => pure (some n)
  | .float x =>
    match x.truncate? with
    | some n => pure (some n)
    | none => throw .infiniteNumber
  | .text s => pure (Integer.ofString? s)
  | _ => pure none

/-- Remove all occurrences of the argument's text. -/
def cut (v argument : Value) : EvalM Value := do
  let s ← v.write
  let part ← argument.write
  return .text (String.ofList (Text.replaceAll part.toList [] s.toList))

/-- Cut the text to a number of characters, the last one an ellipsis. -/
def truncateChars (v argument : Value) : EvalM Value := do
  match ← toInteger? argument with
  | none => return v
  | some n =>
    let s ← v.write
    if (s.toList.length : Int) ≤ n then return .text s
    else if n ≤ 0 then return .text ""
    else return .text (String.ofList (s.toList.take (n.toNat - 1) ++ ['…']))

/-- The argument in place of a value that is not true. -/
def default (v argument : Value) : EvalM Value := do
  return if v.isTrue (← get) then v else argument

/-- The argument in place of `none`. -/
def defaultIfNone (v argument : Value) : EvalM Value :=
  match v with
  | .none => pure argument
  | _ => pure v

/-- The number of items, 0 for a value that has no length. -/
def length (v : Value) : EvalM Value := do
  return .int ((v.length? (← get)).getD 0)

def writeAll : List Value → EvalM (List String)
  | [] => pure []
  | v :: rest => do
    let s ← v.write
    return s :: (← writeAll rest)

/-- Whether a value can be read through. -/
def isReadable (st : Store) : Value → Bool
  | .onceOnly .. => true
  | v => (v.length? st).isSome

/-- The texts of the items with the argument's text between them; a value without items stays as it is. -/
def join (v argument : Value) : EvalM Value := do
  let separator ← argument.write
  if isReadable (← get) v then
    return .text (separator.intercalate (← writeAll (← v.items)))
  else return v

/-- The item at a position, or the empty text. -/
def itemOrEmpty (n : Int) (v : Value) : EvalM Value := do
  return (v.itemAt? (← get) n).getD (.text "")

/-- Whether a value is a number, the undefined one included. -/
def isNumber (v : Value) : Bool :=
  match v with
  | .nan _ => true
  | _ => v.magnitude?.isSome

/-- Whether an integer is beyond the range of floating-point numbers. -/
def isBeyondRange : Value → Bool
  | .int n => (Double.ofRatio false n.natAbs 1) == .infinite false
  | _ => false

/-- Put together two values that are not both integers: texts, lists and tuples are joined end to end, and a
sum with the undefined number is undefined. Anything else gives the empty text. -/
def append (a b : Value) : EvalM Value := do
  match a, b with
  | .text s, .text t => return .text (s ++ t)
  | .list i xs, .list j ys =>
    let st ← get
    return .list (← EvalM.freshIdent) (st.pick i xs ++ st.pick j ys)
  | .tuple xs, .tuple ys => return .tuple (xs ++ ys)
  | _, _ =>
    if isNumber a && isNumber b then
      if isBeyondRange a || isBeyondRange b then throw .infiniteNumber
      else return .nan (← EvalM.freshIdent)
    else return .text ""

/-- The sum of two integers, or what `append` makes of the values. -/
def add (v argument : Value) : EvalM Value := do
  match ← toInteger? v with
  | none => append v argument
  | some a =>
    match ← toInteger? argument with
    | none => append v argument
    | some b => return .int (a + b)

/-- The parts of a text between its commas. -/
def commaParts (s : String) : Value :=
  .tuple ((Text.splitAtChar ',' s.toList).map fun part => .text (String.ofList part))

/-- The choices that an argument offers. A text is split at its commas; an object of the host is asked to split
itself. -/
def choices : Option Value → EvalM Value
  | none | some .none => pure (commaParts "yes,no,maybe")
  | some (.text s) => pure (commaParts s)
  | some argument =>
    match argument.attribute? "split" with
    | some operation => operation.calledWithOne
    | none => throw .notText

/-- The item at a position, which must be there. -/
def itemAt (n : Nat) (v : Value) : EvalM Value := do
  match v.itemAt? (← get) n, v with
  | some item, _ => return item
  | none, .mapping .. => throw .missingEntry
  | none, _ => throw .unsupportedKind

/-- Whether the first items of a value can be cut off. -/
def isSliceable : Value → Bool
  | .text _ | .list .. | .tuple _ => true
  | _ => false

/-- The choice for a value: the first for true, the second for false, and the third, or the second of two, for
`none`. With a single choice the value stays as it is. -/
def yesNo (v : Value) (argument : Option Value) : EvalM Value := do
  let offered ← choices argument
  match offered.length? (← get) with
  | none => throw .unsupportedKind
  | some count =>
    if count < 2 then return v
    else if 2 < count && !isSliceable offered then throw .unsupportedKind
    else
      let yes ← itemAt 0 offered
      let no ← itemAt 1 offered
      let maybe ← itemAt (if count == 2 then 1 else 2) offered
      match v with
      | .none => return maybe
      | _ => return if v.isTrue (← get) then yes else no

/-- The standard filters under their names. -/
def all : List (String × Filter) := [
  ("upper", ofText Text.upper),
  ("lower", ofText Text.lower),
  ("title", ofText Text.title),
  ("capfirst", ofText Text.upperFirst),
  ("cut", ofPair cut),
  ("truncatechars", ofPair truncateChars),
  ("default", ofPair default),
  ("default_if_none", ofPair defaultIfNone),
  ("length", ofValue length),
  ("join", ofPair join),
  ("first", ofValue (itemOrEmpty 0)),
  ("last", ofValue (itemOrEmpty (-1))),
  ("add", ofPair add),
  ("yesno", ofOptional yesNo)]

end TextTemplate.StandardFilter
