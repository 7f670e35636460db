/-!
# Searching in sorted items

Where an item belongs among sorted ones. A search asks of single items whether they come after the place, and
it cannot go on if there is no answer. `bisect` halves a range of places; `boundary` leaps away from a place
where the answer is expected, in steps that double, before it halves what is left.
-/

namespace TextTemplate.Sorting

variable {α : Type}

/-- The place from `low` to `high` before the first item that comes after: halve until no place is left. -/
def bisect (comesAfter : α → Option Bool) (items : List α) (low high : Nat) : Option Nat :=
  if _h : low < high then
    let middle := low + (high - low) / 2
    match items[middle]? with
    | none => some low
    | some x =>
      match comesAfter x with
      | none => none
      | some true => bisect comesAfter items low middle
      | some false => bisect comesAfter items (middle + 1) high
  else some low
termination_by high - low

/-- Ask at the distances `next`, `2 * next + 1` and so on below `bound`: the last distance that passed, `last`
if none did, and the first that did not, or the bound. -/
def leap (passes : Nat → Option Bool) (bound last next : Nat) : Option (Nat × Nat) :=
  if _h : next < bound then
    match passes next with
    | none => none
    | some true => leap passes bound next (2 * next + 1)
    | some false => some (last, next)
  else some (last, bound)
termination_by bound - next

/-- The place before the first item that comes after, sought from the item at `start`. -/
def boundary (comesAfter : α → Option Bool) (items : List α) (start : Nat) : Option Nat := do
  let ask (n : Nat) : Option Bool := items[n]?.bind comesAfter
  if ← ask start then
    let (last, next) ← leap (fun n => ask (start - n)) (start + 1) 0 1
    bisect comesAfter items (start + 1 - next) (start - last)
  else
    let (last, next) ← leap (fun n => (ask (start + n)).map (!·)) (items.length - start) 0 1
    bisect comesAfter items (start + last + 1) (start + next)

end TextTemplate.Sorting
