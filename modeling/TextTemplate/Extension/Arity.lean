import TextTemplate.Compile.Session

/-!
# A library of filter signatures

One filter for each kind of signature that a host filter may have: no argument at all, a fixed number,
arguments that may be left out, any number, an argument that must be named, and a signature that cannot be
known.
-/

namespace TextTemplate.Extension

/-- The texts of the arguments with commas between them, after a name. -/
private def written (name : String) (arguments : List Value) : EvalM Value := do
  let texts ← arguments.mapM (·.write)
  return .text (name ++ "(" ++ ",".intercalate texts ++ ")")

/-- A filter of exactly `n` arguments that writes its name and them. -/
def fixedFilter (name : String) (n : Nat) : Filter where
  signature? := some (.exactly n)
  run := written name

/-- Put the argument, a star if there is none, before and after the value. -/
def surroundFilter : Filter where
  signature? := some ⟨1, 1, false, false⟩
  run
    | [v] => do return .text ("*" ++ (← v.write) ++ "*")
    | [v, a] => do
      let before ← a.write
      let middle ← v.write
      return .text (before ++ middle ++ before)
    | _ => throw .wrongArgumentCount

/-- A filter that writes its name and how many arguments it got. -/
def countingFilter (name : String) (signature? : Option Signature) : Filter where
  signature? := signature?
  run arguments := return .text (name ++ toString arguments.length)

def arityLibrary (name : String) : TagLibrary :=
  .ofEntries name [] [
    ("f0", fixedFilter "f0" 0),
    ("f1", fixedFilter "f1" 1),
    ("f2", fixedFilter "f2" 2),
    ("f3", fixedFilter "f3" 3),
    ("opt", surroundFilter),
    ("many", countingFilter "many" (some ⟨0, 0, true, false⟩)),
    ("kwonly", countingFilter "kwonly" (some ⟨1, 0, false, true⟩)),
    ("nosig", countingFilter "nosig" none)]

end TextTemplate.Extension
