import TextTemplate.RenderError
import TextTemplate.Value.Equality
import TextTemplate.Value.Shown
import TextTemplate.Value.Store

/-!
# Looking at values while rendering

Length, truth, items, membership, order and text of a value as the store has it. The items of a value are
its first children, not settled ones, so that they can go back into circulation.
-/

namespace TextTemplate

/-- Computations on values: they may fail, and they keep what they changed when they do. -/
abbrev EvalM := EStateM RenderError Store

namespace EvalM

/-- An ident that names nothing yet. -/
def freshIdent : EvalM Ident := fun st => .ok st.fresh { st with fresh := st.fresh + 1 }

/-- The answer of a comparison, or the failure to compare. -/
def ofComparison : Option Bool → EvalM Bool
  | some b => pure b
  | none => throw .unsupportedKind

end EvalM

namespace Value

/-- The characters of a text, each as a text. -/
def characters (s : String) : List Value := s.toList.map fun c => text (String.singleton c)

/-- What a view shows of one entry. -/
def ofEntry : ViewKind → Value × Value → Value
  | .keys, (k, _) => k
  | .values, (_, v) => v
  | .items, (k, v) => tuple [k, v]

/-- The items of a value that has a length. -/
def sizedItems? (st : Store) : Value → Option (List Value)
  | text s => some (characters s)
  | list id items => some (st.pick id items)
  | tuple items => some items
  | set items => some items
  | mapping id entries => some ((st.pick id entries).map (·.1))
  | view kind _ source entries => some ((st.pick source entries).map (ofEntry kind))
  | _ => Option.none

def length? (st : Store) (v : Value) : Option Nat := (v.sizedItems? st).map (·.length)

/-- A value is false if it is `none`, zero or empty. -/
def isTrue (st : Store) : Value → Bool
  | none => false
  | bool b => b
  | int n => n != 0
  | float x => !x.isZero
  | v => match v.length? st with
    | some n => n != 0
    | Option.none => true

/-- The items of a value that can be read through; reading uses up a once-only sequence. -/
def items (v : Value) : EvalM (List Value) := do
  let st ← get
  match v.sizedItems? st with
  | some items => pure items
  | Option.none =>
    match v with
    | onceOnly id items =>
      modify (·.setCount id items.length)
      pure (items.drop (st.count id))
    | _ => throw .unsupportedKind

/-- The text that a value is written as. -/
def write (v : Value) : EvalM String := do
  let settled := v.settle (← get)
  if settled.isWritable then pure settled.written else throw .tooManyDigits

/-- Whether one of the items counts as found, asked up to the first that does or that cannot be compared, and how
many items were asked. -/
private def search (x : Value) : List Value → Option Bool × Nat
  | [] => (some false, 0)
  | y :: rest =>
    match isFoundAs y x with
    | some false =>
      let (answer, n) := search x rest
      (answer, n + 1)
    | answer => (answer, 1)

/-- Whether `container` holds `x`; asking uses up a once-only sequence as far as the last item asked. -/
def isIn (x container : Value) : EvalM Bool := do
  let st ← get
  let x := x.settle st
  match container.settle st with
  | text s => match x with
    | text part => pure (Text.occursIn part.toList s.toList)
    | _ => throw .unsupportedKind
  | list _ items | tuple items => EvalM.ofComparison (search x items).1
  | mapping _ entries =>
    if x.isHashable then pure (keyed? x entries).isSome else throw .unsupportedKind
  | onceOnly id items =>
    let (answer, n) := search x (settleAll st (items.drop (st.count id)))
    modify (·.setCount id (st.count id + n))
    EvalM.ofComparison answer
  | view .values _ _ entries => EvalM.ofComparison (search x (entries.map (·.2))).1
  | settled => EvalM.ofComparison (hasMember settled x)

/-- Equality of two values, as the store has them. -/
def isEqual (a b : Value) : EvalM Bool := do
  let st ← get
  EvalM.ofComparison (equals (a.settle st) (b.settle st))

/-- Whether two values stand in an order relation, as the store has them. -/
def isRelated (r : Relation) (a b : Value) : EvalM Bool := do
  let st ← get
  EvalM.ofComparison (related r (a.settle st) (b.settle st))

/-- The child at a position that counts from the end if it is negative. -/
def atPosition {α : Type} (children : List α) (n : Int) : Option α :=
  if 0 ≤ n then children[n.toNat]?
  else if -n ≤ children.length then children[children.length - (-n).toNat]?
  else Option.none

/-- The item at a position of a sequence, or under a number as key of a mapping. -/
def itemAt? (st : Store) (n : Int) : Value → Option Value
  | text s => (atPosition s.toList n).map fun c => text (String.singleton c)
  | list id items => atPosition (st.pick id items) n
  | tuple items => atPosition items n
  | mapping id entries => keyed? (int n) (st.pick id entries)
  | _ => Option.none

end Value

end TextTemplate
