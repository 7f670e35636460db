import TextTemplate.Value.Sorting.Search

/-!
# Merging two sorted runs

Two neighbouring runs are merged from the end where the shorter one is set aside, so that the items of the
other side can move up. Items are taken one by one; a side that wins often enough in a row lets the merge
leap over all the items that go before the next one of the other side. How often is often enough is the
patience, which a merge hands on to the next one.

Reading from an end, both runs are lists whose next item comes first. If a comparison has no answer, a merge
stops: the error is the list as it lies at that moment, the merged items and what is left of both runs.
-/

namespace TextTemplate.Sorting

variable {α : Type}

/-- How many items one side must win in a row, at first and to keep a merge leaping. -/
def firstPatience : Nat := 7

/-- How a merge goes on: item by item, with the number of items that each run has just won in a row, or
leaping. -/
inductive Pace where
  | single (first second : Nat)
  | leaping

/-- What is left of two runs, in one list. The run that was set aside goes back into the gap. -/
def joined (fromEnd : Bool) (first second : List α) : List α :=
  if fromEnd then second ++ first else first ++ second

/-- The rest of a merge if it is clear without a comparison: one run is used up, or the run that was set aside
has only its outermost item, which goes behind the other run. -/
def clearRest? (aside other : List α) : Option (List α) :=
  match aside, other with
  | _, [] => some aside
  | [], _ => some other
  | [x], _ => some (other ++ [x])
  | _, _ => none

/-- The rest of a merge of two runs if it is clear: from the start the first run is set aside, from the end
the second one. -/
def rest? (fromEnd : Bool) (first second : List α) : Option (List α) :=
  if fromEnd then clearRest? second first else clearRest? first second

/-- How many of the next items of a run come before the place that `comesAfter` tells; from the end, how many
come after it. -/
def lead? (fromEnd : Bool) (comesAfter : α → Option Bool) (run : List α) : Option Nat :=
  if fromEnd then (boundary comesAfter run.reverse (run.length - 1)).map (run.length - ·)
  else boundary comesAfter run 0

/-- Whether an item is not less than another one. -/
def notLess (less : α → α → Option Bool) (x y : α) : Option Bool := (less x y).map (!·)

/-- Merge two runs from one end; `merged` holds the items taken so far, the last one first. The answer is the
patience that is left and the merged list. -/
def mergeFrom (less : α → α → Option Bool) (fromEnd : Bool) (patience : Nat) (pace : Pace)
    (merged first second : List α) : Except (List α) (Nat × List α) :=
  match rest? fromEnd first second with
  | some rest => .ok (patience, merged.reverse ++ rest)
  | none =>
    match first, second with
    | x :: xs, y :: ys =>
      match pace with
      | .single m n =>
        match less y x with
        | none => .error (merged.reverse ++ joined fromEnd (x :: xs) (y :: ys))
        | some answer =>
          if answer == fromEnd then
            if m + 1 < patience then mergeFrom less fromEnd patience (.single (m + 1) 0) (x :: merged) xs (y :: ys)
            else match rest? fromEnd xs (y :: ys) with
              | some rest => .ok (patience, merged.reverse ++ x :: rest)
              | none => mergeFrom less fromEnd (patience + 1) .leaping (x :: merged) xs (y :: ys)
          else
            if n + 1 < patience then mergeFrom less fromEnd patience (.single 0 (n + 1)) (y :: merged) (x :: xs) ys
            else match rest? fromEnd (x :: xs) ys with
              | some rest => .ok (patience, merged.reverse ++ y :: rest)
              | none => mergeFrom less fromEnd (patience + 1) .leaping (y :: merged) (x :: xs) ys
      | .leaping =>
        let patience := max 1 (patience - 1)
        match lead? fromEnd (less y) (x :: xs) with
        | none => .error (merged.reverse ++ joined fromEnd (x :: xs) (y :: ys))
        | some m =>
          let merged := ((x :: xs).take m).reverse ++ merged
          match rest? fromEnd ((x :: xs).drop m) (y :: ys) with
          | some rest => .ok (patience, merged.reverse ++ rest)
          | none =>
            let merged := y :: merged
            match rest? fromEnd ((x :: xs).drop m) ys with
            | some rest => .ok (patience, merged.reverse ++ rest)
            | none =>
              match _h : (x :: xs).drop m with
              | [] => .ok (patience, merged.reverse ++ ys)
              | z :: zs =>
                match lead? fromEnd (fun w => notLess less w z) ys with
                | none => .error (merged.reverse ++ joined fromEnd (z :: zs) ys)
                | some n =>
                  let merged := (ys.take n).reverse ++ merged
                  match rest? fromEnd (z :: zs) (ys.drop n) with
                  | some rest => .ok (patience, merged.reverse ++ rest)
                  | none =>
                    let merged := z :: merged
                    match rest? fromEnd zs (ys.drop n) with
                    | some rest => .ok (patience, merged.reverse ++ rest)
                    | none =>
                      if firstPatience ≤ m || firstPatience ≤ n then
                        mergeFrom less fromEnd patience .leaping merged zs (ys.drop n)
                      else mergeFrom less fromEnd (patience + 1) (.single 0 0) merged zs (ys.drop n)
    | _, _ => .ok (patience, merged.reverse ++ joined fromEnd first second)
termination_by first.length + second.length
decreasing_by
  all_goals
    simp only [List.length_cons, List.length_drop]
    try have := congrArg List.length _h
    try simp only [List.length_cons, List.length_drop] at this
    omega

/-- Merge a run with the run after it, once the items that are in place at the outer ends are left out. -/
def mergeInner (less : α → α → Option Bool) (patience : Nat) (first second : List α) :
    Except (List α) (Nat × List α) :=
  if first.length ≤ second.length then
    match second with
    | [] => .ok (patience, first)
    | y :: ys => mergeFrom less false patience (.single 0 0) [y] first ys
  else
    match first.reverse with
    | [] => .ok (patience, second)
    | x :: xs =>
      match mergeFrom less true patience (.single 0 0) [x] xs second.reverse with
      | .ok (patience, items) => .ok (patience, items.reverse)
      | .error items => .error items.reverse

/-- Merge a run with the run after it. The items of the first that go before all of the second stay where they
are, and so do the items of the second that go behind all of the first. -/
def mergeRuns (less : α → α → Option Bool) (patience : Nat) (first second : List α) :
    Except (List α) (Nat × List α) :=
  match second with
  | [] => .ok (patience, first)
  | y :: _ =>
    match boundary (less y) first 0 with
    | none => .error (first ++ second)
    | some m =>
      match (first.drop m).getLast? with
      | none => .ok (patience, first ++ second)
      | some x =>
        match boundary (fun z => notLess less z x) second (second.length - 1) with
        | none => .error (first ++ second)
        | some n =>
          if n == 0 then .ok (patience, first ++ second)
          else
            match mergeInner less patience (first.drop m) (second.take n) with
            | .ok (patience, items) => .ok (patience, first.take m ++ items ++ second.drop n)
            | .error items => .error (first.take m ++ items ++ second.drop n)

end TextTemplate.Sorting
