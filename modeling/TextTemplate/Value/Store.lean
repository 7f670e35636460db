import TextTemplate.Value.Basic

/-!
# What rendering has changed

The store remembers the changes made to the data of one render: which children of a list or mapping are
left and in what order, how much of a once-only sequence has been read, how often a function was called.
`Value.settle` applies the changes to a value, so that everything which only looks at a value can be
defined on plain trees. Changes always refer to the children that the value was built with; a settled
value is for looking at and never goes back into circulation.
-/

namespace TextTemplate

structure Store where
  /-- The next ident to give out. -/
  fresh : Ident
  /-- The children left in a list or mapping, as positions among its first children. -/
  orders : List (Ident × List Nat)
  /-- Items read of once-only sequences and calls made of counting functions. -/
  counts : List (Ident × Nat)

namespace Store

def empty (fresh : Ident) : Store := ⟨fresh, [], []⟩

/-- The positions of the children left of `size` first ones. -/
def order (st : Store) (id : Ident) (size : Nat) : List Nat :=
  (st.orders.lookup id).getD (List.range size)

def setOrder (st : Store) (id : Ident) (order : List Nat) : Store :=
  { st with orders := (id, order) :: st.orders.filter (·.1 != id) }

/-- The children left, in their present order. -/
def pick {α : Type} (st : Store) (id : Ident) (children : List α) : List α :=
  match st.orders.lookup id with
  | none => children
  | some order => order.filterMap (children[·]?)

def count (st : Store) (id : Ident) : Nat := (st.counts.lookup id).getD 0

def setCount (st : Store) (id : Ident) (n : Nat) : Store :=
  { st with counts := (id, n) :: st.counts.filter (·.1 != id) }

end Store

mutual

/-- The value as the changes have left it. -/
def Value.settle (st : Store) : Value → Value
  | .list id items => .list id (st.pick id (Value.settleAll st items))
  | .tuple items => .tuple (Value.settleAll st items)
  | .mapping id entries => .mapping id (st.pick id (Value.settleEntries st entries))
  | .view kind id source entries =>
    .view kind id source (st.pick source (Value.settleEntries st entries))
  | .none => .none
  | .bool b => .bool b
  | .int n => .int n
  | .float x => .float x
  | .nan id => .nan id
  | .text s => .text s
  | .set items => .set items
  | .onceOnly id items => .onceOnly id items
  | .hostObject id attributes => .hostObject id attributes
  | .hostType id attributes => .hostType id attributes
  | .hostFunction id shape result => .hostFunction id shape result

def Value.settleAll (st : Store) : List Value → List Value
  | [] => []
  | v :: rest => v.settle st :: Value.settleAll st rest

def Value.settleEntries (st : Store) : List (Value × Value) → List (Value × Value)
  | [] => []
  | (k, v) :: rest => (k.settle st, v.settle st) :: Value.settleEntries st rest

end

end TextTemplate
