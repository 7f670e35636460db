import TextTemplate.Entries
import TextTemplate.Text.Order
import TextTemplate.Value.Basic

/-!
# Equality and order of values

Values of one kind are compared by content, and all numbers by their place on the number line. Objects made
by the host are equal to themselves only. Inside a container the undefined number is equal to itself, though
on its own it is not. Views of a mapping's keys and items compare like sets; a comparison that needs to look
up a value that cannot be a key has no answer (`none`), and neither has the order of values of different
kinds. All functions here look at settled values.
-/

namespace TextTemplate.Value

/-- Whether a value is a number at the given place. -/
def isAt (x : Magnitude) (b : Value) : Bool :=
  match b.magnitude? with
  | some y => x.order y == .eq
  | Option.none => false

mutual

/-- Equality of values inside containers. -/
def agrees (a b : Value) : Bool :=
  match a with
  | .none => match b with
    | .none => true
    | _ => false
  | .text s => match b with
    | .text t => s == t
    | _ => false
  | .list _ xs => match b with
    | .list _ ys => allAgree xs ys
    | _ => false
  | .tuple xs => match b with
    | .tuple ys => allAgree xs ys
    | _ => false
  | .mapping _ xs => match b with
    | .mapping _ ys => xs.length == ys.length && entriesAgree xs ys
    | _ => false
  | .set xs => match b with
    | .set ys => xs.length == ys.length && membersAgree xs ys
    | _ => false
  | .nan i => match b with
    | .nan j => i == j
    | _ => false
  | .onceOnly i _ => match b with
    | .onceOnly j _ => i == j
    | _ => false
  | .view _ i _ _ => match b with
    | .view _ j _ _ => i == j
    | _ => false
  | .hostObject i _ => match b with
    | .hostObject j _ => i == j
    | _ => false
  | .hostType i _ => match b with
    | .hostType j _ => i == j
    | _ => false
  | .hostFunction i _ _ => match b with
    | .hostFunction j _ _ => i == j
    | _ => false
  | .bool x => isAt (.ofInt (if x then 1 else 0)) b
  | .int n => isAt (.ofInt n) b
  | .float x => isAt x.magnitude b
termination_by structural a

/-- Two sequences agree item by item. -/
def allAgree : List Value → List Value → Bool
  | [], [] => true
  | x :: xs, y :: ys => x.agrees y && allAgree xs ys
  | _, _ => false
termination_by structural xs => xs

/-- Every entry of the first mapping is in the second. -/
def entriesAgree : List (Value × Value) → List (Value × Value) → Bool
  | [], _ => true
  | (k, v) :: rest, ys => (ys.any fun e => k.agrees e.1 && v.agrees e.2) && entriesAgree rest ys
termination_by structural xs => xs

/-- Every member of the first set is in the second. -/
def membersAgree : List Value → List Value → Bool
  | [], _ => true
  | x :: rest, ys => (ys.any fun y => x.agrees y) && membersAgree rest ys
termination_by structural xs => xs

end

/-- The entry of a mapping under a key. -/
def keyed? (key : Value) (entries : List (Value × Value)) : Option Value :=
  (entries.find? fun e => key.agrees e.1).map (·.2)

/-- The entries of a mapping that is built from pairs one by one: a key that is there already keeps its place. -/
def entriesOf (pairs : List (Value × Value)) : List (Value × Value) :=
  pairs.foldl (fun entries e => Entries.putBy agrees e.1 e.2 entries) []

/-- The members of a set that is built from values one by one. -/
def distinct (members : List Value) : List Value :=
  members.foldl (fun found x => if found.any x.agrees then found else found ++ [x]) []

/-- The members of a set or of a set-like view. -/
def members? : Value → Option (List Value)
  | .set xs => some xs
  | .view .keys _ _ entries => some (entries.map (·.1))
  | .view .items _ _ entries => some (entries.map fun e => .tuple [e.1, e.2])
  | _ => Option.none

def isView : Value → Bool
  | .view .. => true
  | _ => false

/-- Whether a set or set-like view has a member. A set never has a set as member. -/
def hasMember (container x : Value) : Option Bool :=
  match container with
  | .set xs =>
    match x with
    | .set _ => some false
    | _ => if x.isHashable then some (xs.any x.agrees) else Option.none
  | .view .keys _ _ entries =>
    if x.isHashable then some (entries.any fun e => x.agrees e.1) else Option.none
  | .view .items _ _ entries =>
    match x with
    | .tuple [k, v] =>
      if k.isHashable then
        some (match keyed? k entries with
          | some found => found.agrees v
          | Option.none => false)
      else Option.none
    | _ => some false
  | _ => Option.none

/-- Whether the container has all the members, asked one by one up to the first that it lacks. -/
def hasMembers (container : Value) : List Value → Option Bool
  | [] => some true
  | x :: rest =>
    match hasMember container x with
    | some true => hasMembers container rest
    | answer => answer

/-- Equality of two values on their own. -/
def equals (a b : Value) : Option Bool :=
  match a, b with
  | .nan _, _ => some false
  | _, .nan _ => some false
  | _, _ =>
    match members? a, members? b with
    | some xs, some ys =>
      if xs.length != ys.length then some false
      else if isView a then hasMembers b xs
      else hasMembers a ys
    | _, _ => some (a.agrees b)

/-- Equality as a search through a sequence applies it: the very same object counts as found. -/
def isFoundAs (a b : Value) : Option Bool :=
  match a, b with
  | .nan i, .nan j => some (i == j)
  | _, _ => equals a b

/-- The four order relations. -/
inductive Relation where
  | less
  | atMost
  | greater
  | atLeast
  deriving DecidableEq, Repr

/-- Whether a relation holds of two things that compare as given. -/
def Relation.holds : Relation → Ordering → Bool
  | .less, o => o == .lt
  | .atMost, o => o != .gt
  | .greater, o => o == .gt
  | .atLeast, o => o != .lt

/-- Order of set-like values: inclusion, proper for the strict relations. -/
def orderMembers (r : Relation) (a b : Value) (xs ys : List Value) : Option Bool :=
  if !r.holds (compare xs.length ys.length) then some false
  else match r with
    | .less | .atMost => hasMembers b xs
    | .greater | .atLeast => hasMembers a ys

mutual

/-- Whether two values stand in an order relation; sequences compare at the first difference. -/
def related (r : Relation) (a b : Value) : Option Bool :=
  match a with
  | .list _ xs => match b with
    | .list _ ys => itemsRelated r xs ys
    | _ => Option.none
  | .tuple xs => match b with
    | .tuple ys => itemsRelated r xs ys
    | _ => Option.none
  | .text s => match b with
    | .text t => some (r.holds (Text.order s t))
    | _ => Option.none
  | .nan _ => match b with
    | .nan _ => some false
    | _ => b.magnitude?.map fun _ => false
  | _ =>
    match members? a, members? b with
    | some xs, some ys => orderMembers r a b xs ys
    | _, _ =>
      match a.magnitude?, b with
      | some _, .nan _ => some false
      | some x, _ => b.magnitude?.map fun y => r.holds (x.order y)
      | Option.none, _ => Option.none

def itemsRelated (r : Relation) : List Value → List Value → Option Bool
  | [], [] => some (r.holds .eq)
  | [], _ :: _ => some (r.holds .lt)
  | _ :: _, [] => some (r.holds .gt)
  | x :: xs, y :: ys => if x.agrees y then itemsRelated r xs ys else related r x y

end

end TextTemplate.Value
