import TextTemplate.Config
import TextTemplate.Config.Yaml

/-!
# Files

The files that an engine reads, by their absolute paths, and the decoding of their bytes. A directory exists
if it is the home directory, one above that, or a file lies under it. Text is read with every kind of line end
turned into a newline.
-/

namespace TextTemplate

structure Files where
  /-- The working directory, which relative paths are seen from. It exists even if it is empty. -/
  home : Path
  contents : List (List String × ByteArray)

/-- Why the bytes of a file have no text. -/
inductive DecodeFault where
  | unknownEncoding
  | invalidBytes
  deriving DecidableEq, Repr

/-- The failure to look for a file under a name that no file can have. -/
inductive NameTooLong where
  | mk
  deriving DecidableEq, Repr

namespace Files

def isFolder (fs : Files) (parts : List String) : Bool :=
  parts.isPrefixOf fs.home.parts ||
    fs.contents.any fun e => parts.isPrefixOf e.1 && parts.length < e.1.length

/-- The most bytes of one name in a directory. -/
def maxNameSize : Nat := 255

/-- The most bytes of a path. -/
def maxPathSize : Nat := 4095

/-- Go from a directory along components; every directory on the way must exist. The length of a name counts
where the name is looked for, so not past a directory that is missing. -/
def resolve (fs : Files) : List String → List String → Except NameTooLong (Option (List String))
  | at_, [] => .ok (some at_)
  | at_, part :: rest =>
    if !fs.isFolder at_ then .ok none
    else if part == ".." then fs.resolve at_.dropLast rest
    else if maxNameSize < part.utf8ByteSize then .error .mk
    else fs.resolve (at_ ++ [part]) rest

/-- Where a path leads. -/
def locate (fs : Files) (p : Path) : Except NameTooLong (Option (List String)) :=
  if maxPathSize < p.toString.utf8ByteSize then .error .mk
  else fs.resolve (if p.isAbsolute then [] else fs.home.parts) p.parts

/-- The bytes of the file at a path, if there is one. -/
def file? (fs : Files) (p : Path) : Except NameTooLong (Option ByteArray) := do
  return (← fs.locate p).bind fun parts => fs.contents.lookup parts

def isDirectory (fs : Files) (p : Path) : Except NameTooLong Bool := do
  return ((← fs.locate p).map fs.isFolder).getD false

/-- Put a file at a place, in the stead of one that may be there. -/
def write (fs : Files) (p : Path) (bytes : ByteArray) : Files :=
  { fs with contents := fs.contents.filter (·.1 != p.parts) ++ [(p.parts, bytes)] }

/-- Turn every line end into a newline. -/
def normalizeLines : List Char → List Char
  | [] => []
  | '\r' :: '\n' :: rest => '\n' :: normalizeLines rest
  | c :: rest => (if c == '\r' then '\n' else c) :: normalizeLines rest

/-- The text of bytes that each stand for one character, all below the bound. -/
private def decodeSingle (bound : Nat) (bytes : ByteArray) : Option String :=
  if bytes.toList.all fun b => b.toNat < bound then
    some (String.ofList (bytes.toList.map fun b => Char.ofNat b.toNat))
  else none

/-- The text of bytes in the named encoding. -/
def decode (encoding : String) (bytes : ByteArray) : Except DecodeFault String :=
  let name := (encoding.toLower.map fun c => if c == '_' then '-' else c)
  let decoded :=
    if ["utf-8", "utf8"].contains name then some (String.fromUTF8? bytes)
    else if ["latin-1", "latin1", "iso-8859-1"].contains name then some (decodeSingle 256 bytes)
    else if ["ascii", "us-ascii"].contains name then some (decodeSingle 128 bytes)
    else none
  match decoded with
  | none => .error .unknownEncoding
  | some none => .error .invalidBytes
  | some (some s) => .ok (String.ofList (normalizeLines s.toList))

end Files

namespace Config

/-- Read the mapping in a configuration file; a missing or empty file gives an empty mapping. -/
def readMapping (fs : Files) (path : Path) : Except ConfigFault Value :=
  match fs.file? path with
  | .error _ => .error .nameTooLong
  | .ok none => .ok (.mapping 0 [])
  | .ok (some bytes) =>
    match Files.decode "utf-8" bytes with
    | .error _ => .error .undecodable
    | .ok text =>
      match Yaml.parse text.toList with
      | .error .malformed => .error .malformedFile
      | .error .badNumber => .error .badNumber
      | .error .unhashableKey => .error .unsupportedKind
      | .ok v =>
        if !v.isTrue (.empty 0) then .ok (.mapping 0 [])
        else match v with
          | .mapping .. => .ok v
          | _ => .error (.fileNotMapping path.toString)

/-- Load the configuration in a file, or in the file of the given name if the path is a directory. -/
def load (fs : Files) (fileName : String) (path : Path) : Except ConfigFault Config := do
  match fs.isDirectory path with
  | .error _ => throw .nameTooLong
  | .ok isDirectory =>
    let path := if isDirectory then path.join (.ofString fileName) else path
    ofValue (← readMapping fs path) (some path.parent)

end Config

end TextTemplate
