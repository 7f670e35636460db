import TextTemplate.Condition.Truth
import TextTemplate.Node

/-!
# Rendering

Every node writes a text. Names bound by a node are visible in its body only: the body runs in a scope of
its own, which is dropped when the body is done or fails.
-/

namespace TextTemplate

namespace Loop

/-- What a loop goes through: how many items there were at the start, and how to get each one. An item can be
missing if the list has become shorter since. -/
structure Source where
  length : Nat
  item? : Nat → EvalM (Option Value)

/-- A source of items that do not change. -/
def Source.ofItems (items : List Value) : Source := ⟨items.length, fun n => pure items[n]?⟩

/-- Go through a value as it changes. A mapping must keep its size. -/
def Source.live (v : Value) (fixedSize : Bool) (length : Nat) : Source where
  length := length
  item? n := do
    let items := (v.sizedItems? (← get)).getD []
    if fixedSize && items.length != length then throw .changedWhileRead
    else return items[n]?

/-- What a loop goes through for a value: a sequence that is read once is read at the start. -/
def source (v : Value) : EvalM Source := do
  match v with
  | .none => return .ofItems []
  | _ =>
    match v.length? (← get) with
    | some n =>
      match v with
      | .list .. => return .live v false n
      | .mapping .. | .view .. => return .live v true n
      | _ => return .ofItems (← v.items)
    | none => return .ofItems (← v.items)

/-- Whether a loop can go through a value from its end. -/
def isReversible : Value → Bool
  | .set _ => false
  | _ => true

/-- The same source from its end. Past the last item it is asked for the item past its end. -/
def Source.reverse (s : Source) : Source where
  length := s.length
  item? n := s.item? (if n < s.length then s.length - 1 - n else n)

/-- The entries that `forloop` has in the iteration at `index` of a loop over `length` items. -/
def entries (parent : Value) (length index : Nat) : List (Value × Value) :=
  [(.text "parentloop", parent),
    (.text "counter0", .int index),
    (.text "counter", .int (index + 1)),
    (.text "revcounter", .int ((length : Int) - index)),
    (.text "revcounter0", .int ((length : Int) - index - 1)),
    (.text "first", .bool (index == 0)),
    (.text "last", .bool (index + 1 == length))]

/-- Put back the entries that the body took out of `forloop`, all but the one for the outer loop. -/
def restore (id : Ident) (st : Store) : Store :=
  match st.orders.lookup id with
  | none => st
  | some order => st.setOrder id (order ++ [1, 2, 3, 4, 5, 6].filter (!order.contains ·))

/-- The parts of an item that is bound to several names; an item without parts is its own only part. -/
def parts (item : Value) : EvalM (List Value) := fun st =>
  match item.items st with
  | .ok items st' => .ok items st'
  | .error _ st' => .ok [item] st'

def assignAll : List (String × Value) → RenderM Unit
  | [] => pure ()
  | (name, v) :: rest => do
    modify fun s => { s with context := s.context.assign name v }
    assignAll rest

/-- Bind the names of a loop to an item. -/
def bind (names : List String) (item : Value) : RenderM Unit := do
  match names with
  | [name] => assignAll [(name, item)]
  | _ =>
    let values ← RenderM.onValues (parts item)
    if values.length == names.length then assignAll (names.zip values)
    else throw (.unpackMismatch names.length values.length)

/-- Run the iterations of a loop from `index` on, at most `fuel` of them. -/
def run (item? : Nat → EvalM (Option Value)) (body : Nat → Value → RenderM String) :
    (fuel index : Nat) → RenderM String
  | 0, _ => return ""
  | fuel + 1, index => do
    match ← RenderM.onValues (item? index) with
    | none => return ""
    | some item =>
      let text ← body index item
      return text ++ (← run item? body fuel (index + 1))

/-- Render a loop, given how its body and its empty part are rendered. -/
def render (names : List String) (sequence : Expression) (reversed : Bool)
    (body empty : RenderM String) : RenderM String := do
  let v ← sequence.resolve .ignore
  let source ← RenderM.onValues (source v)
  if source.length == 0 then empty
  else if reversed && !isReversible v then throw .unsupportedKind
  else
    let source := if reversed then source.reverse else source
    let id ← RenderM.onValues EvalM.freshIdent
    let outer ← RenderM.onValues EvalM.freshIdent
    let parent := ((← get).context.get? "forloop").getD (.mapping outer [])
    RenderM.withScope [("forloop", .mapping id [(.text "parentloop", parent)])]
      (run source.item? (fun index item => do
        modify fun s => { s with store := restore id s.store }
        assignAll [("forloop", .mapping id (entries parent source.length index))]
        bind names item
        body) (source.length + 1) 0)

end Loop

namespace Node

/-- Take out the blanks between a closing and an opening angle bracket. -/
def closeGaps : List Char → List Char
  | [] => []
  | c :: rest =>
    if c == '>' && (Text.dropBlanks rest).head? == some '<' then c :: closeGaps (Text.dropBlanks rest)
    else c :: closeGaps rest
termination_by s => s.length
decreasing_by
  · have : (Text.dropBlanks rest).length ≤ rest.length := Text.dropWhile_length_le _ rest
    simp only [List.length_cons]
    omega
  · simp

/-- The values of the assignments of a `with` tag, all resolved before any is bound. -/
def resolveAll : List (String × Expression) → RenderM Scope
  | [] => return []
  | (name, e) :: rest => do
    let v ← e.resolve .substitute
    return (name, v) :: (← resolveAll rest)

/-- The first candidate that is true, written. -/
def writeFirstTrue : List Expression → RenderM String
  | [] => return ""
  | e :: rest => do
    let v ← e.resolve .ignore
    if v.isTrue (← get).store then RenderM.onValues v.write else writeFirstTrue rest

/-- Whether two operands are equal. -/
def operandsEqual (left right : Expression) : RenderM Bool := do
  let a ← left.resolve .ignore
  let b ← right.resolve .ignore
  RenderM.onValues (a.isEqual b)

mutual

/-- The text that a node writes. -/
def render : Node → RenderM String
  | text s => return s
  | output e => e.render
  | choice branches otherwise => renderBranches (renderOption otherwise) branches
  | loop names sequence reversed body empty =>
    Loop.render names sequence reversed (renderAll body) (renderAll empty)
  | binding assignments body => do
    let scope ← resolveAll assignments
    RenderM.withScope (Entries.putAll [] scope) (renderAll body)
  | equality negated left right whenTrue whenFalse => do
    if (← operandsEqual left right) != negated then renderAll whenTrue else renderAll whenFalse
  | firstTrue candidates => writeFirstTrue candidates
  | spaceless body => do
    return String.ofList (closeGaps (Text.trim (← renderAll body).toList))
  | filtered calls body => do
    let v ← FilterCall.applyAll calls (.text (← renderAll body))
    RenderM.onValues v.write
  | labelled label body => do
    return "[" ++ label ++ "]" ++ (← renderAll body) ++ "[/" ++ label ++ "]"
  | marker s => return s

/-- The texts of nodes one after the other. -/
def renderAll : List Node → RenderM String
  | [] => return ""
  | n :: rest => do
    let s ← n.render
    return s ++ (← renderAll rest)

/-- The first branch whose condition holds, or else the given text. -/
def renderBranches (otherwise : RenderM String) : List (Condition × List Node) → RenderM String
  | [] => otherwise
  | (condition, body) :: rest => do
    if ← condition.eval then renderAll body else renderBranches otherwise rest

def renderOption : Option (List Node) → RenderM String
  | none => return ""
  | some body => renderAll body

end

@[simp] theorem render_text (s : String) : (text s).render = pure s := by
  rw [render]

end Node

end TextTemplate
