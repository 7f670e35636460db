import TextTemplate.Number.Decimal
import TextTemplate.Value.Basic

/-!
# Text of values

How values are written into the output. A text is written as it is; inside a container it is quoted. Values
made by the host are written as their kind between angle brackets. All functions here look at settled
values. An integer of too many digits cannot be written, see `isWritable`.
-/

namespace TextTemplate.Value

private def commaSeparated (parts : List String) : String := ", ".intercalate parts

private def bracketed (opening : String) (parts : List String) (closing : String) : String :=
  opening ++ commaSeparated parts ++ closing

private def tupleShown : List String → String
  | [part] => "(" ++ part ++ ",)"
  | parts => bracketed "(" parts ")"

mutual

/-- The form in which a value is shown inside a container. -/
def shown : Value → String
  | .none => "None"
  | .bool b => if b then "True" else "False"
  | .int n => toString n
  | .float x => x.text
  | .nan _ => "nan"
  | .text s => Text.quoted s
  | .list _ items => bracketed "[" (allShown items) "]"
  | .tuple items => tupleShown (allShown items)
  | .mapping _ entries => bracketed "\x7b" (entriesShown ": " "" "" entries) "\x7d"
  | .set items => if items.isEmpty then "set()" else bracketed "\x7b" (allShown items) "\x7d"
  | .onceOnly .. => "<sequence>"
  | .view .keys _ _ entries => bracketed "dict_keys([" (keysShown entries) "])"
  | .view .values _ _ entries => bracketed "dict_values([" (valuesShown entries) "])"
  | .view .items _ _ entries => bracketed "dict_items([" (entriesShown ", " "(" ")" entries) "])"
  | .hostObject .. => "<obj>"
  | .hostType .. => "<cls>"
  | .hostFunction .. => "<fn>"

def allShown : List Value → List String
  | [] => []
  | v :: rest => v.shown :: allShown rest

def entriesShown (between opening closing : String) : List (Value × Value) → List String
  | [] => []
  | (k, v) :: rest =>
    (opening ++ k.shown ++ between ++ v.shown ++ closing) :: entriesShown between opening closing rest

def keysShown : List (Value × Value) → List String
  | [] => []
  | (k, _) :: rest => k.shown :: keysShown rest

def valuesShown : List (Value × Value) → List String
  | [] => []
  | (_, v) :: rest => v.shown :: valuesShown rest

end

mutual

/-- Whether every integer that the text of the value shows is short enough to be written. -/
def isWritable : Value → Bool
  | .int n => Integer.isWritable n
  | .list _ items => allWritable items
  | .tuple items => allWritable items
  | .set items => allWritable items
  | .mapping _ entries => entriesWritable true true entries
  | .view kind _ _ entries => entriesWritable (kind != .values) (kind != .keys) entries
  | _ => true

def allWritable : List Value → Bool
  | [] => true
  | v :: rest => v.isWritable && allWritable rest

def entriesWritable (withKeys withValues : Bool) : List (Value × Value) → Bool
  | [] => true
  | (k, v) :: rest =>
    (!withKeys || k.isWritable) && (!withValues || v.isWritable) && entriesWritable withKeys withValues rest

end

/-- The text that a value is written as. -/
def written : Value → String
  | .text s => s
  | v => v.shown

end TextTemplate.Value
