import TextTemplate.Config.Yaml.Node
import TextTemplate.Number.Decimal
import TextTemplate.Value.Equality

/-!
# Reading YAML

The part of YAML 1.2 that configuration files are written in: block and flow mappings and sequences, plain
and quoted scalars, and comments. A plain scalar is null, a truth value, a number or a text by its form; a
sequence that is a key becomes a tuple.

A document has no value if it is malformed, which includes a mapping with a key given twice, or if one of its
parts has none. Mappings and sequences are built from the outside in, and of several faults the one that is
met first counts.
-/

namespace TextTemplate.Yaml

/-- Why a document has no value. -/
inductive Fault where
  | malformed
  /-- A number has no digits, or too many. -/
  | badNumber
  /-- A key has a part that cannot be looked up. -/
  | unhashableKey
  deriving DecidableEq, Repr

/-! ### Plain scalars -/

private def isDigitOrUnderscore (c : Char) : Bool := c.isDigit || c == '_'

private def stripUnderscores (s : List Char) : List Char := s.filter (· != '_')

/-- The digits of each base that an integer can be written in, by its mark. -/
private def isDigitOf (mark : Char) (c : Char) : Bool :=
  c == '_' || (match mark with
    | 'b' => c == '0' || c == '1'
    | 'o' => '0' ≤ c && c ≤ '7'
    | 'x' => c.isDigit || ('a' ≤ c && c ≤ 'f') || ('A' ≤ c && c ≤ 'F')
    | _ => c.isDigit)

private def digitValue (c : Char) : Nat :=
  if c.isDigit then c.toNat - 48 else if 'a' ≤ c then c.toNat - 87 else c.toNat - 55

/-- The value of digits, underscores left out; there must be one, and not too many decimal ones. -/
private def inBase (base : Nat) (s : List Char) : Except Fault Nat :=
  let digits := stripUnderscores s
  if digits.isEmpty || (base == 10 && Integer.maxDigits < digits.length) then .error .badNumber
  else .ok (digits.foldl (fun n c => base * n + digitValue c) 0)

/-- The base and the digits of an integer without its sign: base 2, 8 or 16 after a mark, otherwise 10. -/
private def integerForm? : List Char → Option (Nat × List Char)
  | '0' :: 'b' :: digits => if Text.allOf (isDigitOf 'b') digits then some (2, digits) else none
  | '0' :: 'o' :: digits => if Text.allOf (isDigitOf 'o') digits then some (8, digits) else none
  | '0' :: 'x' :: digits => if Text.allOf (isDigitOf 'x') digits then some (16, digits) else none
  | digits => if Text.allOf isDigitOrUnderscore digits then some (10, digits) else none

/-- Whether a text is an exponent, which may need its sign. -/
private def isExponent (signNeeded : Bool) : List Char → Bool
  | c :: rest =>
    let digits := (Integer.takeSign rest).2
    (c == 'e' || c == 'E') && Text.allOf Char.isDigit digits && !(signNeeded && digits.length == rest.length)
  | [] => false

/-- Whether an unsigned text is written like a number with a point or an exponent. An exponent after a number
that starts with the point needs its sign. -/
private def isFractional (s : List Char) : Bool :=
  let rest := s.dropWhile isDigitOrUnderscore
  match s, rest with
  | '.' :: part, _ =>
    let after := part.dropWhile isDigitOrUnderscore
    after.length < part.length && (after.isEmpty || isExponent true after)
  | c :: _, '.' :: part =>
    let after := part.dropWhile isDigitOrUnderscore
    c.isDigit && (after.isEmpty || isExponent false after)
  | c :: _, _ => c.isDigit && isExponent false rest
  | [], _ => false

private def special? (s : List Char) : Option Value :=
  let (negative, body) := Integer.takeSign s
  if [".inf", ".Inf", ".INF"].contains (String.ofList body) then some (.float (.infinite negative))
  else if [".nan", ".NaN", ".NAN"].contains (String.ofList s) then some (.nan 0)
  else none

/-- The number that a plain scalar stands for, if it is written like one. -/
private def number? (s : List Char) : Option (Except Fault Value) :=
  let (negative, body) := Integer.takeSign s
  match special? s with
  | some v => some (.ok v)
  | none =>
    if isFractional body then
      some (match Double.ofChars? (stripUnderscores s) with
        | some x => .ok (.float x)
        | none => .error .badNumber)
    else if s.head? == some '_' then none
    else (integerForm? body).map fun (base, digits) =>
      (inBase base digits).map fun n => .int (if negative then -(n : Int) else n)

/-- What a plain scalar stands for. The marks for a default value and for merging have no value of their own. -/
def plainValue (s : List Char) : Except Fault Value :=
  let name := String.ofList s
  if ["", "~", "null", "Null", "NULL"].contains name then .ok .none
  else if ["true", "True", "TRUE"].contains name then .ok (.bool true)
  else if ["false", "False", "FALSE"].contains name then .ok (.bool false)
  else if ["=", "<<"].contains name then .error .malformed
  else (number? s).getD (.ok (.text name))

/-! ### Values of nodes -/

def scalarValue (isPlain : Bool) (text : List Char) : Except Fault Value :=
  if isPlain then plainValue text else .ok (.text (String.ofList text))

/-- The value of a scalar that is a key, where the marks stand for themselves. -/
def keyValue (isPlain : Bool) (text : List Char) : Except Fault Value :=
  match scalarValue isPlain text with
  | .error .malformed => .ok (.text (String.ofList text))
  | result => result

/-- The key that a scalar stands for. -/
def keyOf (isPlain : Bool) (text : List Char) : Value :=
  match keyValue isPlain text with
  | .ok key => key
  | .error _ => .none

mutual

/-- The value of a node; parts without a value count as null. -/
def Node.value : Node → Value
  | .scalar isPlain text =>
    match scalarValue isPlain text with
    | .ok v => v
    | .error _ => .none
  | .sequence items => .list 0 (itemValues items)
  | .mapping entries => .mapping 0 (entryValues entries)

def itemValues : List Node → List Value
  | [] => []
  | n :: rest => n.value :: itemValues rest

def entryValues : List (Node × Node) → List (Value × Value)
  | [] => []
  | (.scalar isPlain text, v) :: rest => (keyOf isPlain text, v.value) :: entryValues rest
  | (.sequence items, v) :: rest => (.tuple (itemValues items), v.value) :: entryValues rest
  | (k, v) :: rest => (k.value, v.value) :: entryValues rest

end

/-! ### Faults -/

/-- The faults of reading one scalar. -/
def faultsOf (depth : Nat) (result : Except Fault Value) : List (Nat × Fault) :=
  match result with
  | .ok _ => []
  | .error f => [(depth, f)]

/-- The fault of a key that comes after the given ones. -/
def keyFault? (earlier : List Value) (key : Value) : Option Fault :=
  if !key.isHashable then some .unhashableKey
  else if earlier.any key.agrees then some .malformed
  else none

mutual

/-- The faults of a node at some depth and of its parts, each with its depth. All parts of a key are as deep as
the key. -/
def Node.faults (depth : Nat) : Node → List (Nat × Fault)
  | .scalar isPlain text => faultsOf depth (scalarValue isPlain text)
  | .sequence items => itemFaults (depth + 1) items
  | .mapping entries => entryFaults (depth + 1) [] entries

def itemFaults (depth : Nat) : List Node → List (Nat × Fault)
  | [] => []
  | n :: rest => n.faults depth ++ itemFaults depth rest

def entryFaults (depth : Nat) (earlier : List Value) : List (Node × Node) → List (Nat × Fault)
  | [] => []
  | (.scalar isPlain text, v) :: rest =>
    let key := keyOf isPlain text
    faultsOf depth (keyValue isPlain text) ++ v.faults depth ++
      ((keyFault? earlier key).map (depth, ·)).toList ++ entryFaults depth (key :: earlier) rest
  | (.sequence items, v) :: rest =>
    let key := .tuple (itemValues items)
    (itemFaults depth items).map (fun f => (depth, f.2)) ++ v.faults depth ++
      ((keyFault? earlier key).map (depth, ·)).toList ++ entryFaults depth (key :: earlier) rest
  | (.mapping entries, v) :: rest =>
    (entryFaults depth [] entries).map (fun f => (depth, f.2)) ++ (depth, .malformed) :: v.faults depth ++
      entryFaults depth earlier rest

end

/-- The first of the faults that are least deep. -/
def firstFault? : List (Nat × Fault) → Option (Nat × Fault)
  | [] => none
  | f :: rest =>
    match firstFault? rest with
    | some g => if g.1 < f.1 then some g else some f
    | none => some f

/-! ### Documents -/

/-- Whether a character may stand in a document. -/
def isAllowed (c : Char) : Bool :=
  let n := c.toNat
  c == '\t' || c == '\n' || c == '\r' || (0x20 ≤ n && n ≤ 0x7E) || n == 0x85 ||
    (0xA0 ≤ n && n ≤ 0xFFFD) || 0x10000 ≤ n

/-- The characters of a document: the mark of the byte order is left out, and the next-line character ends a line
like any other. -/
def prepared (text : List Char) : List Char :=
  (if text.head? == some '\ufeff' then text.tail else text).map fun c => if c == '\u0085' then '\n' else c

/-- The value of a document. -/
def parse (text : List Char) : Except Fault Value :=
  if text.all isAllowed then
    match Node.ofChars? (prepared text) with
    | none => .error .malformed
    | some root =>
      match firstFault? (root.faults 0) with
      | some (_, f) => .error f
      | none => .ok root.value
  else .error .malformed

end TextTemplate.Yaml
