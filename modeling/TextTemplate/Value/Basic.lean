import TextTemplate.Number.Double

/-!
# Values

The data that a template is rendered with. A value is an immutable tree. The parts that can change while a
template is rendered (lists and mappings that lose or reorder entries, once-only sequences, counting
functions) carry an ident, and what has happened to them is kept apart, in the store.
-/

namespace TextTemplate

/-- Names an object that can change or that is equal to itself only. -/
abbrev Ident := Nat

/-- Which part of a mapping a view shows. -/
inductive ViewKind where
  | keys
  | items
  | values
  deriving DecidableEq, Repr

/-- What a host function does when it is called with no argument. -/
inductive Response where
  /-- Answers its result. -/
  | answers
  /-- Answers how often it has been called. -/
  | counts
  /-- Fails with a host error of the named kind. -/
  | fails (kind : String)
  deriving DecidableEq, Repr

/-- What a host function does with an argument. -/
inductive ArgumentUse where
  | refused
  | optional
  | required
  deriving DecidableEq, Repr

/-- How a host function can be called. -/
structure FunctionShape where
  argument : ArgumentUse
  signatureKnown : Bool
  response : Response
  deriving DecidableEq, Repr

inductive Value where
  | none
  | bool (b : Bool)
  | int (n : Int)
  | float (x : Double)
  /-- The undefined number: equal to nothing, though a container finds the very same one again. -/
  | nan (id : Ident)
  | text (s : String)
  | list (id : Ident) (items : List Value)
  | tuple (items : List Value)
  | mapping (id : Ident) (entries : List (Value × Value))
  | set (items : List Value)
  /-- A sequence that can be read once. -/
  | onceOnly (id : Ident) (items : List Value)
  /-- A live view of the mapping `source`. -/
  | view (kind : ViewKind) (id source : Ident) (entries : List (Value × Value))
  | hostObject (id : Ident) (attributes : List (String × Value))
  | hostType (id : Ident) (attributes : List (String × Value))
  | hostFunction (id : Ident) (shape : FunctionShape) (result : Value)

namespace Value

instance : Inhabited Value := ⟨none⟩

/-- The place of a value on the number line; truth values count as 0 and 1. -/
def magnitude? : Value → Option Magnitude
  | bool b => some (.ofInt (if b then 1 else 0))
  | int n => some (.ofInt n)
  | float x => some x.magnitude
  | _ => Option.none

mutual

/-- Values that can be looked up in a set or be a key of a mapping. -/
def isHashable : Value → Bool
  | tuple items => allHashable items
  | list .. | mapping .. | set .. => false
  | view kind .. => kind == .values
  | _ => true

def allHashable : List Value → Bool
  | [] => true
  | v :: rest => v.isHashable && allHashable rest

end

/-- The entry of a mapping whose key is the given text. -/
def keyedByText? (key : String) : List (Value × Value) → Option Value
  | [] => Option.none
  | (text k, v) :: rest => if k == key then some v else keyedByText? key rest
  | _ :: rest => keyedByText? key rest

end Value

end TextTemplate
