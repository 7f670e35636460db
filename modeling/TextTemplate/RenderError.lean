/-!
# Failures while rendering

Why a template that compiled could not be rendered with some data. Most causes lie in the data or in a host
function; `missing` and `unpackMismatch` have a text that names what the template asked for.
-/

namespace TextTemplate

inductive RenderError where
  /-- A lookup path failed at one of its segments. -/
  | missing (path segment : String)
  /-- A loop with several variables met an item with another number of parts. -/
  | unpackMismatch (wanted got : Nat)
  /-- An operation was applied to values of a kind that it does not support. -/
  | unsupportedKind
  /-- A filter was called with a number of arguments that it does not take. -/
  | wrongArgumentCount
  /-- An integer has too many digits to be written. -/
  | tooManyDigits
  /-- A whole number was asked of an infinite one. -/
  | infiniteNumber
  /-- A value lacks an operation that only texts have. -/
  | notText
  /-- An item was asked of an empty list. -/
  | emptyList
  /-- An entry was asked of an empty mapping. -/
  | emptyMapping
  /-- A mapping has no entry under the number that was asked for. -/
  | missingEntry
  /-- A mapping lost entries while a loop was going through it. -/
  | changedWhileRead
  /-- A host function failed with an error of the named kind. -/
  | hostFailure (kind : String)
  deriving DecidableEq, Repr

namespace RenderError

/-- The text of the failures that have one. -/
def message? : RenderError → Option String
  | missing path segment =>
    if segment.isEmpty || segment == path then some ("Failed lookup for '" ++ path ++ "'")
    else some ("Failed lookup for '" ++ segment ++ "' in '" ++ path ++ "'")
  | unpackMismatch wanted got =>
    some ("Need " ++ toString wanted ++ " values to unpack in for loop; got " ++ toString got)
  | _ => none

end RenderError

end TextTemplate
