import TextTemplate.CompileError
import TextTemplate.Text.Blank
import TextTemplate.Text.ClosedString

/-!
# Tokens of conditions

A condition falls into parentheses, comparison operators, operands and the keywords `and`, `or`, `not` and
`in`; blanks are dropped. An operand runs on over closed strings and over all characters but blanks, quotes,
parentheses and those of operators, so it takes its filters along. Every token knows its offset, and the
last one marks the end.
-/

namespace TextTemplate

namespace ConditionToken

inductive Kind where
  | keyword
  | operator
  | symbol
  | operand
  | ending
  deriving DecidableEq, Repr

/-- The name by which diagnostics call the kind. -/
def Kind.label : Kind → String
  | .keyword => "KEYWORD"
  | .operator => "OPERATOR"
  | .symbol => "SYMBOL"
  | .operand => "OPERAND"
  | .ending => "EOF"

end ConditionToken

structure ConditionToken where
  kind : ConditionToken.Kind
  text : String
  offset : Nat
  deriving DecidableEq, Repr

namespace ConditionToken

open Text

/-- The token as diagnostics show it. -/
def shown (t : ConditionToken) : String :=
  "Token(" ++ t.kind.label ++ ", '" ++ t.text ++ "', pos=" ++ toString t.offset ++ ")"

/-- Characters that stand for themselves in an operand. -/
def isOperandChar (c : Char) : Bool :=
  !isBlank c && !isQuote c && c != '(' && c != ')' && c != '=' && c != '!' && c != '<' && c != '>'

/-- The longest run of operand characters and closed strings at the start of a text, and the rest. -/
def takeOperand (s : List Char) : List Char × List Char :=
  match s with
  | [] => ([], [])
  | c :: rest =>
    if isOperandChar c then (c :: (takeOperand rest).1, (takeOperand rest).2)
    else
      match _h : closedString? (c :: rest) with
      | some (string, after) => (string ++ (takeOperand after).1, (takeOperand after).2)
      | none => ([], c :: rest)
termination_by s.length
decreasing_by
  all_goals first
    | (simp only [List.length_cons]; omega)
    | exact closedString?_length_lt _h

/-- The operator at the start of a text, the longer one of two, and the rest. -/
def operator? : List Char → Option (List Char × List Char)
  | '=' :: '=' :: rest => some (['=', '='], rest)
  | '!' :: '=' :: rest => some (['!', '='], rest)
  | '<' :: '=' :: rest => some (['<', '='], rest)
  | '>' :: '=' :: rest => some (['>', '='], rest)
  | '<' :: rest => some (['<'], rest)
  | '>' :: rest => some (['>'], rest)
  | _ => none

def isKeyword (s : String) : Bool := s == "and" || s == "or" || s == "not" || s == "in"

/-- The token that starts with the character `c`, which is no blank, and the text after it. -/
def first? (c : Char) (rest : List Char) : Option (Kind × List Char × List Char) :=
  if c == '(' || c == ')' then some (.symbol, [c], rest)
  else match operator? (c :: rest) with
    | some (operator, after) => some (.operator, operator, after)
    | none =>
      match takeOperand (c :: rest) with
      | ([], _) => none
      | (operand, after) =>
        some (if isKeyword (String.ofList operand) then .keyword else .operand, operand, after)

theorem takeOperand_append (s : List Char) : (takeOperand s).1 ++ (takeOperand s).2 = s := by
  fun_induction takeOperand s with
  | case1 => rfl
  | case2 c rest h ih => simpa using ih
  | case3 c rest h string after hs ih =>
    rw [(closedString?_append hs).1]
    simpa using ih
  | case4 => rfl

/-- A token is the start of the text, is not empty, and nothing is lost. -/
theorem first?_append {c : Char} {rest text after : List Char} {kind : Kind}
    (h : first? c rest = some (kind, text, after)) : text ++ after = c :: rest ∧ text ≠ [] := by
  unfold first? at h
  split at h
  · cases h
    simp
  · split at h
    · rename_i ho
      cases h
      unfold operator? at ho
      split at ho <;> simp_all <;> (obtain ⟨rfl, rfl⟩ := ho; simp)
    · have := takeOperand_append (c :: rest)
      split at h
      · simp at h
      · rename_i ht
        cases h
        rw [ht] at this
        exact ⟨this, by assumption⟩

/-- The tokens of a text that starts at an offset. -/
def scan (s : List Char) (offset : Nat) : Except (Char × Nat) (List ConditionToken) :=
  match s with
  | [] => .ok [⟨.ending, "", offset⟩]
  | c :: rest =>
    if isBlank c then scan rest (offset + 1)
    else
      match _h : first? c rest with
      | none => .error (c, offset)
      | some (kind, text, after) => do
        return ⟨kind, String.ofList text, offset⟩ :: (← scan after (offset + text.length))
termination_by s.length
decreasing_by
  · simp
  · have h := first?_append _h
    have := congrArg List.length h.1
    have := List.length_pos_iff.mpr h.2
    simp only [List.length_append] at *
    omega

/-- The tokens of a condition, or the character that starts none, with its offset. -/
def ofString (s : String) : Except (Char × Nat) (List ConditionToken) := scan s.toList 0

end ConditionToken

end TextTemplate
