import TextTemplate.Compile.Session

/-!
# A library of block tags

Host tags that use every part of what the compiler offers a tag: bodies with one or several end tags, raw
regions, looking ahead, loading libraries, compiling expressions and calling other tags.
-/

namespace TextTemplate.Extension

open CompileM

/-- `wrap`: the body between brackets that hold the tag's content. -/
def wrap : TagFactory := fun content h => do
  return some (.labelled content (← h.bodyUpTo "endwrap"))

/-- `until`: the body up to one of several tags, between brackets that hold the name of the one found. -/
def untilOneOf : TagFactory := fun content h => do
  let body ← h.parse ((Text.words content.toList).map String.ofList)
  return some (.labelled (← next).tagName body)

/-- The source of the tokens up to the end tag of `raw`. -/
private def rawWithin : (rounds : Nat) → CompileM (List String)
  | 0 => fail .noProgress
  | n + 1 => do
    let t ← next
    if t.isBlock "endraw" then return [] else return t.raw :: (← rawWithin n)

/-- `raw`: the source up to the end tag as text. -/
def raw : TagFactory := fun _ _ => do
  return some (.text (String.join (← rawWithin (← rounds))))

/-- `skip`: drop everything up to the end tag. -/
def skip : TagFactory := fun _ _ => do
  skipPast "endskip"
  return none

/-- `peekname`: the first word of the next token, or its kind, as text; the token stays. -/
def peekName : TagFactory := fun _ _ => do
  let t ← next
  prepend t
  return some (.text (if t.tagName.isEmpty then t.kind.label else t.tagName))

/-- `use`: load the library of the given name. -/
def use : TagFactory := fun content h => do
  let _ ← h.load content
  return none

/-- `spy`: what the tag knows of its own token, as text. -/
def spy : TagFactory := fun _ _ => do
  let t ← currentToken
  return some (.text (t.tagName ++ "|" ++ t.tagContent ++ "|" ++ toString t.line))

/-- `strict`: fail, with the line given as content if there is one. Content that is no number makes it fail with
an error of the host of the given kind. -/
def strict (kind : String) : TagFactory := fun content _ =>
  if content.isEmpty then failHeader (.noArgumentsTaken "strict")
  else match Integer.ofString? content with
    | some line => throw ⟨.header (.noArgumentsTaken "strict"), some line⟩
    | none => fail (.hostFailure kind)

/-- `buggy`: fail with an error of the host of the given kind. -/
def buggy (kind : String) : TagFactory := fun _ _ => fail (.hostFailure kind)

/-- `expr`: the value of an expression. -/
def expression : TagFactory := fun content h => do
  return some (.output (← h.expression content))

/-- `alias`: compile as another tag, named before the first space. -/
def aliasOf : TagFactory := fun content h => do
  match Text.breakAt [' '] content.toList with
  | some (name, rest) => h.callTag (String.ofList name) (String.ofList rest)
  | none => h.callTag content ""

/-- The library; `bugKind` is the kind of host error that `buggy` fails with, and `numberKind` the one of a number
that cannot be read. -/
def blocksLibrary (name bugKind numberKind : String) : TagLibrary :=
  .ofEntries name [
    ("wrap", wrap),
    ("until", untilOneOf),
    ("raw", raw),
    ("skip", skip),
    ("peekname", peekName),
    ("use", use),
    ("spy", spy),
    ("strict", strict numberKind),
    ("buggy", buggy bugKind),
    ("expr", expression),
    ("alias", aliasOf)] []

end TextTemplate.Extension
