import TextTemplate.Value.Sorting.Merge

/-!
# Sorting with a comparison that may have no answer

The list is taken as runs that already ascend or descend; a short run is lengthened by inserting the items
after it. A new run is put on a pile, and before that runs on the pile are merged as far as the boundary
between the last two is deeper than the new one. At the end the pile is merged into one run. The sort is stable.

If a comparison has no answer, sorting stops, and the items stay as they lie at that moment.
-/

namespace TextTemplate.Sorting

variable {α : Type}

/-! ### Runs -/

/-- Insert the remaining items one by one, each after those that it is not less than. -/
def insertAll (less : α → α → Option Bool) (sorted : List α) : List α → Except (List α) (List α)
  | [] => .ok sorted
  | x :: rest =>
    match bisect (less x) sorted 0 sorted.length with
    | none => .error (sorted ++ x :: rest)
    | some n => insertAll less (sorted.take n ++ x :: sorted.drop n) rest

/-- The longest start of a list in which each item after `previous` compares to the one before as `wanted`. -/
def takeRun (less : α → α → Option Bool) (wanted : Bool) (previous : α) :
    List α → Option (List α × List α)
  | [] => some ([], [])
  | x :: rest =>
    match less x previous with
    | none => none
    | some answer =>
      if answer == wanted then
        (takeRun less wanted x rest).map fun (run, after) => (x :: run, after)
      else some ([], x :: rest)

/-- The next run of a list and the items after it. A run that descends is turned around, and one of fewer items
than `size` is made longer. -/
def nextRun (less : α → α → Option Bool) (size : Nat) : List α → Except (List α) (List α × List α)
  | [] => .ok ([], [])
  | [x] => .ok ([x], [])
  | x :: y :: rest =>
    match less y x with
    | none => .error (x :: y :: rest)
    | some descending =>
      match takeRun less descending y rest with
      | none => .error (x :: y :: rest)
      | some (run, after) =>
        let found := if descending then (x :: y :: run).reverse else x :: y :: run
        let more := size - found.length
        match insertAll less found (after.take more) with
        | .ok run => .ok (run, after.drop more)
        | .error items => .error (items ++ after.drop more)

/-- The least size of a run: the length of the list halved until it is below 64, and one more if a half was not
even. -/
def runSize (length odd : Nat) : Nat :=
  if length < 64 then length + odd else runSize (length / 2) (max odd (length % 2))
termination_by length

/-! ### The pile -/

/-- The runs found so far. The runs below the top one come nearest first, each with the depth of its boundary
to the run above it. -/
structure Pile (α : Type) where
  below : List (List α × Nat)
  top : List α
  patience : Nat

/-- All items of a pile in their order. -/
def Pile.items (p : Pile α) : List α := p.below.reverse.flatMap (·.1) ++ p.top

/-- How deep a boundary is: the first place where the binary fractions `a / n` and `b / n` differ, the place
before the point counted as the first. -/
def depth (n : Nat) : (fuel a b : Nat) → Nat
  | 0, _, _ => 1
  | fuel + 1, a, b => if a / n == b / n then depth n fuel (2 * a) (2 * b) + 1 else 1

/-- The depth of the boundary between the top of a pile and a run put on it, in a list of `length` items: where
the middles of the two runs are told apart. -/
def Pile.boundaryDepth (p : Pile α) (length : Nat) (run : List α) : Nat :=
  let start := (p.below.flatMap (·.1)).length
  let middle := 2 * start + p.top.length
  depth length length middle (middle + p.top.length + run.length)

/-- Merge the runs on top whose boundary is deeper than `limit`. -/
def mergeDeeper (less : α → α → Option Bool) (limit : Nat) :
    (below : List (List α × Nat)) → (top : List α) → (patience : Nat) → Except (List α) (Pile α)
  | [], top, patience => .ok ⟨[], top, patience⟩
  | (run, d) :: below, top, patience =>
    if limit < d then
      match mergeRuns less patience run top with
      | .ok (patience, merged) => mergeDeeper less limit below merged patience
      | .error items => .error (below.reverse.flatMap (·.1) ++ items)
    else .ok ⟨(run, d) :: below, top, patience⟩

/-- Put a run on a pile. -/
def Pile.add (less : α → α → Option Bool) (length : Nat) (p : Pile α) (run : List α) :
    Except (List α) (Pile α) :=
  let d := p.boundaryDepth length run
  match mergeDeeper less d p.below p.top p.patience with
  | .ok p => .ok ⟨(p.top, d) :: p.below, run, p.patience⟩
  | .error items => .error (items ++ run)

/-- Merge a pile into one run, from the top; a run between two others goes to the shorter one. -/
def mergePile (less : α → α → Option Bool) (patience : Nat) (top : List α) :
    List (List α × Nat) → Except (List α) (List α)
  | [] => .ok top
  | [(run, _)] =>
    match mergeRuns less patience run top with
    | .ok (_, merged) => .ok merged
    | .error items => .error items
  | (run, d) :: (lower, e) :: below =>
    if lower.length < top.length then
      match mergeRuns less patience lower run with
      | .ok (patience, merged) => mergePile less patience top ((merged, d) :: below)
      | .error items => .error (below.reverse.flatMap (·.1) ++ items ++ top)
    else
      match mergeRuns less patience run top with
      | .ok (patience, merged) => mergePile less patience merged ((lower, e) :: below)
      | .error items => .error (((lower, e) :: below).reverse.flatMap (·.1) ++ items)
termination_by below => below.length

/-- Pile up the runs of the remaining items, at most `fuel` of them, and merge the pile. -/
def sortRest (less : α → α → Option Bool) (length : Nat) :
    (fuel : Nat) → Pile α → List α → Except (List α) (List α)
  | 0, p, rest => .ok (p.items ++ rest)
  | fuel + 1, p, rest =>
    if rest.isEmpty then mergePile less p.patience p.top p.below
    else
      match nextRun less (runSize length 0) rest with
      | .error items => .error (p.items ++ items)
      | .ok (run, after) =>
        match p.add less length run with
        | .error items => .error (items ++ after)
        | .ok p => sortRest less length fuel p after

/-- Sort a list, or tell how its items lie when a comparison has no answer. -/
def sort (less : α → α → Option Bool) (items : List α) : Except (List α) (List α) :=
  match nextRun less (runSize items.length 0) items with
  | .error items => .error items
  | .ok (run, rest) => sortRest less items.length items.length ⟨[], run, firstPatience⟩ rest

end TextTemplate.Sorting
