import TextTemplate.Config.Yaml.Lexeme

/-!
# YAML nodes

The tree of a document: scalars, sequences and mappings. A node that is left out is an empty plain scalar.
-/

namespace TextTemplate.Yaml

inductive Node where
  | scalar (isPlain : Bool) (text : List Char)
  | sequence (items : List Node)
  | mapping (entries : List (Node × Node))

/-- Readers of lexemes; failure means a malformed document. -/
abbrev NodeReader := StateT (List Lexeme) Option

namespace NodeReader

def fail {α : Type} : NodeReader α := fun _ => none

def peek : NodeReader (Option Lexeme) := do return (← get).head?

def take : NodeReader Unit := modify List.tail

/-- Take a lexeme if it comes next. -/
def takeIf (lexeme : Lexeme) : NodeReader Bool := do
  if (← peek) == some lexeme then
    take
    return true
  else return false

def empty : Node := .scalar true []

/-- A node, or the empty one if one of the given lexemes follows. -/
def unlessAt (ends : List Lexeme) (node : NodeReader Node) : NodeReader Node := do
  match ← peek with
  | some l => if ends.contains l then return empty else node
  | none => node

/-- The lexemes that end the parts of a block mapping. -/
def blockEnds : List Lexeme := [.key, .value, .dedent]

mutual

/-- A node. Items with dashes may stand in the column of the mapping that they are a part of, if `flush`. -/
def node (flush : Bool) : (fuel : Nat) → NodeReader Node
  | 0 => fail
  | fuel + 1 => do
    match ← peek with
    | some (.scalar isPlain text) =>
      take
      return .scalar isPlain text
    | some .dash => if flush then return .sequence (← flushItems fuel) else fail
    | some .items =>
      take
      return .sequence (← blockItems fuel)
    | some .entries =>
      take
      return .mapping (← blockEntries fuel)
    | some .openBracket =>
      take
      return .sequence (← flowItems true fuel)
    | some .openBrace =>
      take
      return .mapping (← flowEntries true fuel)
    | _ => fail

/-- The items of a block sequence up to its end. -/
def blockItems : (fuel : Nat) → NodeReader (List Node)
  | 0 => fail
  | fuel + 1 => do
    if ← takeIf .dash then
      let item ← unlessAt [.dash, .dedent] (node false fuel)
      return item :: (← blockItems fuel)
    else if ← takeIf .dedent then return []
    else fail

/-- The items of a sequence in the column of the mapping around it. -/
def flushItems : (fuel : Nat) → NodeReader (List Node)
  | 0 => fail
  | fuel + 1 => do
    if ← takeIf .dash then
      let item ← unlessAt (.dash :: blockEnds) (node false fuel)
      return item :: (← flushItems fuel)
    else return []

/-- The value after a key in a block mapping, empty if there is none. -/
def blockValue : (fuel : Nat) → NodeReader Node
  | 0 => fail
  | fuel + 1 => do
    if ← takeIf .value then unlessAt blockEnds (node true fuel) else return empty

/-- The entries of a block mapping up to its end. -/
def blockEntries : (fuel : Nat) → NodeReader (List (Node × Node))
  | 0 => fail
  | fuel + 1 => do
    if ← takeIf .dedent then return []
    else
      let hasKey ← takeIf .key
      if hasKey || (← peek) == some .value then
        let key ← if hasKey then unlessAt blockEnds (node true fuel) else pure empty
        let item ← blockValue fuel
        return (key, item) :: (← blockEntries fuel)
      else fail

/-- An entry of a flow collection that ends in `close`; without a key mark it is `alone`. -/
def flowEntry (close : Lexeme) : (fuel : Nat) → NodeReader (Node × Option Node)
  | 0 => fail
  | fuel + 1 => do
    let hasKey ← takeIf .key
    if hasKey || (close == .closeBrace && (← peek) == some .value) then
      let key ← if hasKey then unlessAt [.value, .comma, close] (node false fuel) else pure empty
      let item ← if ← takeIf .value then unlessAt [.comma, close] (node false fuel) else pure empty
      return (key, some item)
    else return (← node false fuel, none)

/-- The items of a flow sequence up to its end. An item with a key is a mapping of one entry. -/
def flowItems (first : Bool) : (fuel : Nat) → NodeReader (List Node)
  | 0 => fail
  | fuel + 1 => do
    if ← takeIf .closeBracket then return []
    else if ← if first then pure true else takeIf .comma then
      if ← takeIf .closeBracket then return []
      else
        let item ← match ← flowEntry .closeBracket fuel with
          | (key, some item) => pure (.mapping [(key, item)])
          | (item, none) => pure item
        return item :: (← flowItems false fuel)
    else fail

/-- The entries of a flow mapping up to its end. -/
def flowEntries (first : Bool) : (fuel : Nat) → NodeReader (List (Node × Node))
  | 0 => fail
  | fuel + 1 => do
    if ← takeIf .closeBrace then return []
    else if ← if first then pure true else takeIf .comma then
      if ← takeIf .closeBrace then return []
      else
        let (key, item) ← flowEntry .closeBrace fuel
        return (key, item.getD empty) :: (← flowEntries false fuel)
    else fail

end

/-- Drop the marks of the document's end; nothing may follow them. -/
def finish : NodeReader Unit := do
  modify (·.dropWhile (· == .documentEnd))
  if (← get).isEmpty then return () else fail

/-- The root of a document; an empty one has an empty root. -/
def document : NodeReader Node := do
  let lexemes ← get
  let fuel := 2 * lexemes.length + 2
  if lexemes.isEmpty then return empty
  else
    let marked ← takeIf .documentStart
    let bare := match ← peek with
      | none => true
      | some l => l == .documentStart || l == .documentEnd
    let root ← if marked && bare then pure empty else node false fuel
    finish
    return root

end NodeReader

/-- The tree of a document. -/
def Node.ofChars? (text : List Char) : Option Node := do
  NodeReader.document.run' (← lexemes text)

end TextTemplate.Yaml
