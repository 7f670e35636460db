import TextTemplate.Text.Blank

/-!
# Paths

File paths as a root and components. Repeated slashes and single dots do not count; double dots are kept, as
they cannot be told from the text alone. Exactly two slashes at the start are a root of their own.
-/

namespace TextTemplate

structure Path where
  /-- Empty for a relative path, otherwise one slash or two. -/
  root : String
  parts : List String
  deriving DecidableEq, Repr

namespace Path

/-- The root at the start of a text. -/
def rootOf : List Char → String
  | '/' :: '/' :: '/' :: _ => "/"
  | '/' :: '/' :: _ => "//"
  | '/' :: _ => "/"
  | _ => ""

def ofString (s : String) : Path :=
  ⟨rootOf s.toList,
    ((Text.splitAtChar '/' s.toList).filter fun part => !part.isEmpty && part != ['.']).map String.ofList⟩

def isAbsolute (p : Path) : Bool := !p.root.isEmpty

def toString (p : Path) : String :=
  if p.root.isEmpty && p.parts.isEmpty then "." else p.root ++ "/".intercalate p.parts

/-- The second path as seen from the first; an absolute path is seen from anywhere. -/
def join (p q : Path) : Path := if q.isAbsolute then q else { p with parts := p.parts ++ q.parts }

/-- The path without its last component. -/
def parent (p : Path) : Path := { p with parts := p.parts.dropLast }

end Path

end TextTemplate
