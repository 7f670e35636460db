import TextTemplate.Expression
import TextTemplate.Text.ClosedString

/-!
# Reading expressions

An expression is written as an operand and filter calls, `operand|name:argument|name`. Blanks may stand
around each bar. An operand or argument is a closed string, a run of word characters and dots, or a signed
number. Reading goes from left to right: an operand, argument or filter name that is wrong is reported before
anything that follows it.
-/

namespace TextTemplate.Pipeline

open Text

def isPathChar (c : Char) : Bool := isWord c || c == '.'

def isNumberChar (c : Char) : Bool := isDecimal c || c == '.' || c == 'e'

/-- The unquoted operand at the start of a text: a run of path characters or a signed number. -/
def bare? : List Char → Option (List Char × List Char)
  | [] => none
  | c :: rest =>
    if isPathChar c then some (c :: rest.takeWhile isPathChar, rest.dropWhile isPathChar)
    else if c == '+' || c == '-' then
      match rest with
      | d :: more =>
        if isDecimal d then some (c :: d :: more.takeWhile isNumberChar, more.dropWhile isNumberChar)
        else none
      | [] => none
    else none

/-- The operand at the start of a text. -/
def operand? (s : List Char) : Option (List Char × List Char) :=
  match closedString? s with
  | some found => some found
  | none => bare? s

/-- A filter call as it is written. -/
structure Step where
  name : List Char
  argument : Option (List Char)

/-- The argument after a filter name, if a colon and an operand follow. -/
def argument? : List Char → Option (List Char × List Char)
  | ':' :: rest => operand? rest
  | _ => none

/-- The filter call at the start of a text, blanks before its bar included. -/
def step? (s : List Char) : Option (Step × List Char) :=
  match dropBlanks s with
  | '|' :: rest =>
    let body := dropBlanks rest
    if (body.takeWhile isWord).isEmpty then none
    else
      match argument? (body.dropWhile isWord) with
      | some (argument, after) => some (⟨body.takeWhile isWord, some argument⟩, after)
      | none => some (⟨body.takeWhile isWord, none⟩, body.dropWhile isWord)
  | _ => none

/-- How many characters stand before the next filter call. -/
def distance? : List Char → Option Nat
  | [] => none
  | c :: rest => if (step? (c :: rest)).isSome then some 0 else (distance? rest).map (· + 1)

theorem bare?_length_lt {s found after : List Char} (h : bare? s = some (found, after)) :
    after.length < s.length := by
  unfold bare? at h
  split at h
  · simp at h
  · rename_i c rest
    split at h
    · simp only [Option.some.injEq, Prod.mk.injEq] at h
      have := dropWhile_length_le isPathChar rest
      rw [← h.2, List.length_cons]
      omega
    · split at h
      · split at h
        · rename_i d more
          split at h
          · simp only [Option.some.injEq, Prod.mk.injEq] at h
            have := dropWhile_length_le isNumberChar more
            rw [← h.2, List.length_cons, List.length_cons]
            omega
          · simp at h
        · simp at h
      · simp at h

theorem operand?_length_lt {s found after : List Char} (h : operand? s = some (found, after)) :
    after.length < s.length := by
  unfold operand? at h
  split at h
  · rename_i found' hs
    cases h
    exact closedString?_length_lt hs
  · exact bare?_length_lt h

theorem argument?_length_lt {s found after : List Char} (h : argument? s = some (found, after)) :
    after.length < s.length := by
  unfold argument? at h
  split at h
  · have := operand?_length_lt h
    simp only [List.length_cons]
    omega
  · simp at h

theorem step?_length_lt {s after : List Char} {step : Step} (h : step? s = some (step, after)) :
    after.length < s.length := by
  unfold step? at h
  split at h
  · rename_i rest hs
    have h₁ : (dropBlanks s).length ≤ s.length := dropWhile_length_le isBlank s
    have h₂ : (dropBlanks rest).length ≤ rest.length := dropWhile_length_le isBlank rest
    have h₃ := dropWhile_length_le isWord (dropBlanks rest)
    rw [hs, List.length_cons] at h₁
    simp only at h
    split at h
    · simp at h
    · split at h
      · rename_i ha
        have := argument?_length_lt ha
        simp only [Option.some.injEq, Prod.mk.injEq] at h
        rw [← h.2]
        omega
      · simp only [Option.some.injEq, Prod.mk.injEq] at h
        rw [← h.2]
        omega
  · simp at h

/-- Compile one filter call: its argument first, then its name, then their fit. -/
def compileStep (lookup : FilterLookup) (step : Step) : Except CompileError FilterCall := do
  let argument ← match step.argument with
    | none => pure none
    | some a => some <$> Operand.ofChars a
  let name := String.ofList step.name
  let filter ← lookup name
  FilterCall.check name filter argument
  return ⟨name, filter, argument⟩

private def fail {α : Type} (fault : ExpressionFault) : Except CompileError α :=
  .error (.ofCause (.expression fault))

/-- The failure to read on at `rest`, a part of `source` that starts with no filter call. -/
def strayText (source rest : List Char) : ExpressionFault :=
  match distance? rest with
  | some n =>
    .strayText (String.ofList (source.take (source.length - rest.length)))
      (String.ofList (rest.take n)) (String.ofList (rest.drop n))
  | none => .unreadRest (String.ofList rest) (String.ofList source)

/-- Compile the filter calls that make up the rest of `source`. -/
def compileSteps (lookup : FilterLookup) (source rest : List Char) : Except CompileError (List FilterCall) :=
  match _h : step? rest with
  | some (step, after) => do
    let call ← compileStep lookup step
    return call :: (← compileSteps lookup source after)
  | none => if rest.isEmpty then return [] else fail (strayText source rest)
termination_by rest.length
decreasing_by exact step?_length_lt _h

/-- Compile an expression. -/
def compileChars (lookup : FilterLookup) (source : List Char) : Except CompileError Expression :=
  if source.isEmpty then fail .empty
  else match operand? source with
    | some (found, rest) => do
      let operand ← Operand.ofChars found
      return ⟨String.ofList source, operand, ← compileSteps lookup source rest⟩
    | none =>
      match step? source with
      | some _ => fail (.noOperand (String.ofList source))
      | none => fail (strayText source source)

def compile (lookup : FilterLookup) (source : String) : Except CompileError Expression :=
  compileChars lookup source.toList

/-- Compile a chain of filter calls without an operand, `name:argument|name`. -/
def compileChain (lookup : FilterLookup) (source : String) : Except CompileError (List FilterCall) :=
  if source.isEmpty then fail .emptyChain
  else compileSteps lookup ('|' :: source.toList) ('|' :: source.toList)

end TextTemplate.Pipeline
